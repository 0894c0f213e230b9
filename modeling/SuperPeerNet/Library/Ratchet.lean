/-
This file is a small library about a register that only ever rises.

Callers raise the register one after the other, and each of them keeps the value that it has raised
the register to. What callers keep is never above the register, so a value above the register has
not been kept by anyone, and no two callers keep the same value.
-/

import Mathlib.Logic.Function.Basic
import Mathlib.Order.Lattice

namespace Ratchet

variable {Caller Value : Type} [DecidableEq Caller] [LinearOrder Value]

/-- What callers keep is at most the value of the register, and no two of them keep the same. -/
structure Ledger (register : Value) (kept : Caller → Option Value) : Prop where
  below : ∀ caller value, kept caller = some value → value ≤ register
  apart : ∀ first second value, kept first = some value → kept second = some value →
    first = second

variable {register value : Value} {kept : Caller → Option Value}

omit [DecidableEq Caller] in
theorem Ledger.blank (register : Value) : Ledger register (fun _ : Caller => none) where
  below := nofun
  apart := nofun

/-- A caller raises the register and keeps its new value. -/
theorem Ledger.raise (ledger : Ledger register kept) (above : register < value)
    (caller : Caller) : Ledger value (Function.update kept caller (some value)) := by
  -- nobody has kept the new value before
  have unkept : ∀ other, kept other ≠ some value := fun other holds =>
    not_lt.mpr (ledger.below other value holds) above
  constructor
  · intro other held holds
    by_cases same : other = caller
    · rw [same, Function.update_self] at holds
      exact le_of_eq (Option.some.inj holds).symm
    · rw [Function.update_of_ne same] at holds
      exact le_trans (ledger.below other held holds) (le_of_lt above)
  · intro first second held isFirst isSecond
    by_cases sameFirst : first = caller
    · by_cases sameSecond : second = caller
      · rw [sameFirst, sameSecond]
      · rw [sameFirst, Function.update_self] at isFirst
        rw [Function.update_of_ne sameSecond, ← isFirst] at isSecond
        exact absurd isSecond (unkept second)
    · rw [Function.update_of_ne sameFirst] at isFirst
      by_cases sameSecond : second = caller
      · rw [sameSecond, Function.update_self] at isSecond
        rw [← isSecond] at isFirst
        exact absurd isFirst (unkept first)
      · rw [Function.update_of_ne sameSecond] at isSecond
        exact ledger.apart first second held isFirst isSecond

end Ratchet
