import CommandBinding.Unicode.Properties
import Mathlib.Tactic.Common

/-!
The lower case of uppercase characters. An uppercase character without a lower case stays as it is; the lower case of
every other one has no uppercase character, and neither a dash nor an underscore.
-/
namespace CommandBinding.Unicode

namespace CaseRun

def lowerFirst (r : CaseRun) : Nat :=
  (r.first + r.shift).toNat

def lowerLast (r : CaseRun) : Nat :=
  (r.last + r.shift).toNat

/-- Whether the lower case of no code point of the run `r` lies in the run `q`: all of it lies in front of `q` or behind,
or it falls between the code points of `q`. -/
def apart (r q : CaseRun) : Bool :=
  Nat.blt r.lowerLast q.first || Nat.blt q.last r.lowerFirst ||
    r.step == 2 && q.step == 2 && Nat.blt 0 r.lowerFirst && (r.lowerFirst + q.first) % 2 == 1

theorem not_holds_of_apart {r q : CaseRun} {n : Nat} (h : r.apart q = true) (hn : r.holds n = true) :
    q.holds (n + r.shift).toNat = false := by
  rw [← Bool.not_eq_true]
  intro hq
  simp only [holds, Bool.and_eq_true, decide_eq_true_eq, beq_iff_eq] at hn hq
  simp only [apart, lowerFirst, lowerLast, Bool.or_eq_true, Bool.and_eq_true, Nat.blt_eq, beq_iff_eq] at h
  rcases h with (hbelow | habove) | ⟨⟨⟨hr, hstep⟩, hfirst⟩, hbetween⟩
  · omega
  · omega
  · rw [hr] at hn
    rw [hstep] at hq
    omega

end CaseRun

/-- What stands in no lower case: the dash, the underscore, and uppercase characters. -/
def avoidedRuns : List CaseRun :=
  ⟨'-'.toNat, '-'.toNat, 1, 0⟩ :: ⟨'_'.toNat, '_'.toNat, 1, 0⟩ :: ⟨'A'.toNat, 'Z'.toNat, 1, 0⟩ ::
    ⟨'İ'.toNat, 'İ'.toNat, 1, 0⟩ :: uppercaseRuns.toList

theorem apart_of_mem_uppercaseRuns {r q : CaseRun} (hr : r ∈ uppercaseRuns) (hshift : r.shift ≠ 0)
    (hq : q ∈ avoidedRuns) : r.apart q = true := by
  have hall : (uppercaseRuns.toList.all fun r => r.shift == 0 || avoidedRuns.all r.apart) = true := by decide +kernel
  have hapart := List.all_eq_true.mp hall r (Array.mem_toList_iff.mpr hr)
  simp only [Bool.or_eq_true, beq_iff_eq, hshift, false_or] at hapart
  exact List.all_eq_true.mp hapart q hq

variable {c d : Char}

/-- May stand in the lower case of another character. -/
def isLower (d : Char) : Bool :=
  !isUppercase d && d != '-' && d != '_'

theorem isLower_iff : isLower d = true ↔ isUppercase d = false ∧ d ≠ '-' ∧ d ≠ '_' := by
  simp [isLower, and_assoc]

theorem isLower_of_not_holds (h : ∀ q ∈ avoidedRuns, q.holds d.toNat = false) : isLower d = true := by
  simp only [avoidedRuns, List.forall_mem_cons] at h
  obtain ⟨hdash, hunderscore, hcapital, hdotted, hruns⟩ := h
  refine isLower_iff.mpr ⟨?_, ?_, ?_⟩
  · unfold isUppercase
    split
    · rw [← Bool.not_eq_true]
      intro hupper
      obtain ⟨hlow, hhigh⟩ : d.val ≥ 'A'.val ∧ d.val ≤ 'Z'.val := of_decide_eq_true hupper
      have hletter : 'A'.toNat ≤ d.toNat ∧ d.toNat ≤ 'Z'.toNat :=
        ⟨UInt32.le_iff_toNat_le.mp hlow, UInt32.le_iff_toNat_le.mp hhigh⟩
      have houtside : 65 ≤ d.toNat → 90 < d.toNat := by simpa [CaseRun.holds, Nat.mod_one] using hcapital
      exact absurd hletter.2 (Nat.not_le.mpr (houtside hletter.1))
    · have hne : d ≠ 'İ' := by
        rintro rfl
        exact absurd hdotted (by decide)
      have hnone : caseRun? d.toNat = none :=
        Array.find?_eq_none.mpr fun q hq => by simp [hruns q (Array.mem_toList_iff.mpr hq)]
      simp [hne, hnone]
  · rintro rfl
    exact absurd hdash (by decide)
  · rintro rfl
    exact absurd hunderscore (by decide)

/-- A number that is no code point stands for the code point zero. -/
theorem isLower_ofNat {n : Nat} (h : ∀ q ∈ avoidedRuns, q.holds n = false) : isLower (Char.ofNat n) = true := by
  by_cases hvalid : n.isValidChar
  · have hnat : (Char.ofNat n).toNat = n := by
      rw [Char.ofNat, dif_pos hvalid]
      rfl
    exact isLower_of_not_holds (hnat.symm ▸ h)
  · have hinvalid : Char.ofNat n = Char.ofNat 0 := by
      rw [Char.ofNat, dif_neg hvalid]
      rfl
    rw [hinvalid]
    decide

theorem holds_of_caseRun? {n : Nat} {r : CaseRun} (h : caseRun? n = some r) : r.holds n = true := by
  have hfound := Array.find?_some h
  exact hfound

theorem lowercase_of_ascii (hascii : c.toNat < 128) (h : isUppercase c = true) :
    lowercase c ≠ [] ∧ (lowercase c).all isLower = true := by
  have hall : ∀ n ∈ List.range 128, isUppercase (Char.ofNat n) = true → (lowercase (Char.ofNat n)).all isLower = true := by
    decide +kernel
  have hlower := hall c.toNat (List.mem_range.mpr hascii)
  rw [Char.ofNat_toNat] at hlower
  refine ⟨?_, hlower h⟩
  rw [lowercase, if_pos hascii]
  exact List.cons_ne_nil _ _

/-- An uppercase character has no lower case, or one without uppercase characters, dashes and underscores. -/
theorem lowercase_cases (h : isUppercase c = true) :
    lowercase c = [c] ∨ lowercase c ≠ [] ∧ (lowercase c).all isLower = true := by
  by_cases hascii : c.toNat < 128
  · exact .inr (lowercase_of_ascii hascii h)
  by_cases hdotted : c = 'İ'
  · right
    subst hdotted
    decide +kernel
  · have hrun : (caseRun? c.toNat).isSome = true := by simpa [isUppercase, hascii, hdotted] using h
    obtain ⟨r, hr⟩ := Option.isSome_iff_exists.mp hrun
    have hmem : r ∈ uppercaseRuns := Array.mem_of_find?_eq_some hr
    have hholds : r.holds c.toNat = true := holds_of_caseRun? hr
    have hlower : lowercase c = [Char.ofNat (c.toNat + r.shift).toNat] := by
      simp [lowercase, hascii, hdotted, hr]
    rw [hlower]
    by_cases hshift : r.shift = 0
    · left
      simp [hshift]
    · right
      have hone : isLower (Char.ofNat (c.toNat + r.shift).toNat) = true :=
        isLower_ofNat fun q hq => CaseRun.not_holds_of_apart (apart_of_mem_uppercaseRuns hmem hshift hq) hholds
      simp [hone]

end CommandBinding.Unicode
