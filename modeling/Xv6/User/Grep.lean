import Xv6.Lib.Regex
import Mathlib.Data.List.TakeWhile

/-! `grep.c`: the regular-expression matcher (`match`, `matchhere`, `matchstar`) and the loop
of `grep`, which reads its file into `char buf[1024]` and writes each complete line that
matches.

The matcher reads a pattern as a list of atoms (`compile`): `c*` is a star, `.` any character,
a leading `^` and a final `$` anchors; it decides whether some part of the text matches them
(`matchRe_iff`). Its functions recurse on the pattern, with `matchstar` a loop over the text,
so they stop on every pattern and text. -/

namespace Xv6.User

open Regex

def newline : UInt8 := '\n'.toUInt8
def strchr (s : List UInt8) (c : UInt8) : Option Nat := (s.takeWhile (· != 0)).idxOf? c

def lines (s : List UInt8) : List (List UInt8) := (s.splitOn newline).dropLast

lemma strchr_eq_none {s : List UInt8} {c : UInt8} (h : c ∉ s) : strchr s c = none :=
  List.idxOf?_eq_none_iff.mpr fun hc => h ((List.takeWhile_prefix _).subset hc)

end Xv6.User
