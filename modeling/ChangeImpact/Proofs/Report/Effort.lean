/-
This file shows that neither more modules nor higher risks nor graver changes take less effort.
-/

import ChangeImpact.Estimate.Tests
import ChangeImpact.Proofs.Scalar
import ChangeImpact.Report.Summary

namespace ChangeImpact

/-- An effort that is high or medium under wider conditions is no lower. -/
theorem Effort.le_of_imp {top middle wideTop wideMiddle : Prop} [Decidable top] [Decidable middle]
    [Decidable wideTop] [Decidable wideMiddle] (high : top → wideTop)
    (medium : middle → wideMiddle) :
    (if top then Effort.high else if middle then .medium else .low) ≤
      if wideTop then Effort.high else if wideMiddle then .medium else .low := by
  split_ifs <;> first | decide | exact absurd (high ‹_›) ‹_› | exact absurd (medium ‹_›) ‹_›

/-- Nothing is riskier than a high risk. -/
theorem RiskLevel.eq_high_of_le {risk : RiskLevel} (graded : .high ≤ risk) : risk = .high := by
  revert graded
  cases risk <;> decide

/-- Each module has one of its own among the others, in the same order and at no lower risk. -/
def Outweighed {α : Type} (less more : List (AffectedModule α)) : Prop :=
  List.SublistForall₂ (fun item other => item.risk ≤ other.risk) less more

namespace Outweighed

section Steps

variable {α : Type} {item other : AffectedModule α}

theorem refl (affected : List (AffectedModule α)) : Outweighed affected affected := by
  induction affected with
  | nil => exact .nil
  | cons first rest ih => exact .cons (Nat.le_refl _) ih

theorem append_left (before : List (AffectedModule α)) {less more : List (AffectedModule α)}
    (outweighed : Outweighed less more) : Outweighed (before ++ less) (before ++ more) := by
  induction before with
  | nil => exact outweighed
  | cons first rest ih => exact .cons (Nat.le_refl _) ih

theorem insert (before after : List (AffectedModule α)) (item : AffectedModule α) :
    Outweighed (before ++ after) (before ++ item :: after) :=
  append_left before (.cons_right (refl after))

theorem raise (before after : List (AffectedModule α)) (graded : item.risk ≤ other.risk) :
    Outweighed (before ++ item :: after) (before ++ other :: after) :=
  append_left before (.cons graded (refl after))

end Steps

section Measures

variable {less more : List (AffectedModule Rat)}

theorem length_le (outweighed : Outweighed less more) : less.length ≤ more.length := by
  induction outweighed with
  | nil => exact Nat.zero_le _
  | cons _ _ ih => exact Nat.succ_le_succ ih
  | cons_right _ ih => exact Nat.le_succ_of_le ih

theorem atRisk_high_le (outweighed : Outweighed less more) :
    TestImpact.atRisk .high less ≤ TestImpact.atRisk .high more := by
  simp only [TestImpact.atRisk]
  induction outweighed with
  | nil => exact Nat.zero_le _
  | @cons item other _ _ graded _ ih =>
      have kept : (item.risk == .high) = true → (other.risk == .high) = true := by
        rw [beq_iff_eq, beq_iff_eq]
        intro isHigh
        rw [isHigh] at graded
        exact RiskLevel.eq_high_of_le graded
      rw [List.countP_cons, List.countP_cons]
      refine Nat.add_le_add ih ?_
      split_ifs with isHigh stays
      · exact Nat.le_refl _
      · exact absurd (kept isHigh) stays
      · exact Nat.zero_le _
      · exact Nat.le_refl _
  | cons_right _ ih => exact ih.trans (List.Sublist.countP_le (List.sublist_cons_self _ _))

/-- What the risks add up to is no less if higher risks add no less. -/
theorem sum_le {weight : RiskLevel → Rat} (outweighed : Outweighed less more)
    (nonneg : ∀ risk, 0 ≤ weight risk)
    (rises : ∀ lower higher, lower ≤ higher → weight lower ≤ weight higher) :
    (less.map fun item => weight item.risk).sum ≤ (more.map fun item => weight item.risk).sum := by
  induction outweighed with
  | nil => exact List.sum_nonneg (by simp [nonneg])
  | cons graded _ ih =>
      rw [List.map_cons, List.map_cons, List.sum_cons, List.sum_cons]
      exact add_le_add (rises _ _ graded) ih
  | cons_right _ ih =>
      rw [List.map_cons, List.sum_cons]
      exact ih.trans (le_add_of_nonneg_left (nonneg _))

end Measures
end Outweighed

namespace TestImpact

theorem effortFactor_mono {milder graver : ChangeKind} (graded : milder ≤ graver) :
    (effortFactor milder : Rat) ≤ effortFactor graver := by
  revert graded
  cases milder <;> cases graver <;> intro graded <;>
    first | exact absurd graded (by decide) | norm_num [effortFactor]

/-- Only a deletion is as grave as a deletion. -/
theorem eq_deletion_of_le {graver : ChangeKind} (graded : .deletion ≤ graver) :
    graver = .deletion := by
  revert graded
  cases graver <;> decide

theorem effortFactor_nonneg (kind : ChangeKind) : 0 ≤ (effortFactor kind : Rat) := by
  cases kind <;> norm_num [effortFactor]

variable {less more : List (AffectedModule Rat)}

/-- Testing takes no less effort for more modules, higher risks or a change of a graver kind. -/
theorem estimateEffort_mono {milder graver : ChangeKind} (outweighed : Outweighed less more)
    (graded : milder ≤ graver) : estimateEffort less milder ≤ estimateEffort more graver := by
  have weighted : (Scalar.ofNat less.length * effortFactor milder : Rat) ≤
      Scalar.ofNat more.length * effortFactor graver :=
    mul_le_mul (Nat.cast_le.mpr outweighed.length_le) (effortFactor_mono graded)
      (effortFactor_nonneg milder) (Nat.cast_nonneg _)
  have highRisk := outweighed.atRisk_high_le
  refine Effort.le_of_imp ?_ ?_
  · exact Or.imp (fun many => many.trans_le weighted) fun many => many.trans_le highRisk
  · refine Or.imp (fun several => several.trans_le weighted) (Or.imp ?_ ?_)
    · exact fun some => some.trans highRisk
    · rintro rfl
      exact eq_deletion_of_le graded

theorem estimateEffort_perm (reordered : less.Perm more) (change : ChangeKind) :
    estimateEffort less change = estimateEffort more change := by
  unfold estimateEffort atRisk
  rw [reordered.length_eq, reordered.countP_eq]

end TestImpact

namespace Summary

theorem effortFactor_mono {less more : OverallRisk} (graded : less ≤ more) :
    (effortFactor less : Rat) ≤ effortFactor more := by
  revert graded
  cases less <;> cases more <;> intro graded <;>
    first | exact absurd graded (by decide) | norm_num [effortFactor]

theorem effortFactor_nonneg (risk : OverallRisk) : 0 ≤ (effortFactor risk : Rat) := by
  cases risk <;> norm_num [effortFactor]

theorem effortOfRisk_nonneg (risk : RiskLevel) : 0 ≤ (effortOfRisk risk : Rat) := by
  cases risk <;> norm_num [effortOfRisk]

theorem effortOfRisk_mono (lower higher : RiskLevel) (graded : lower ≤ higher) :
    (effortOfRisk lower : Rat) ≤ effortOfRisk higher := by
  revert graded
  cases lower <;> cases higher <;> intro graded <;>
    first | exact absurd graded (by decide) | norm_num [effortOfRisk]

variable {less more : List (AffectedModule Rat)}

/-- Shipping takes no less effort for more modules, higher risks or a higher risk as a whole. -/
theorem estimateEffort_mono {milder graver : OverallRisk} (outweighed : Outweighed less more)
    (graded : milder ≤ graver) : estimateEffort less milder ≤ estimateEffort more graver := by
  let base (affected : List (AffectedModule Rat)) : Rat := Scalar.ofNat affected.length * 0.5
  let added (affected : List (AffectedModule Rat)) : Rat :=
    Scalar.sum (affected.map fun item => effortOfRisk item.risk)
  have sum (affected : List (AffectedModule Rat)) :
      added affected = (affected.map fun item => effortOfRisk item.risk).sum :=
    Scalar.sum_eq_sum _
  have nonneg : 0 ≤ base less + added less := by
    apply add_nonneg
    · exact mul_nonneg (Nat.cast_nonneg _) (by norm_num)
    · exact sum less ▸ List.sum_nonneg (by simp [effortOfRisk_nonneg])
  have summed : base less + added less ≤ base more + added more := by
    apply add_le_add
    · exact mul_le_mul_of_nonneg_right (Nat.cast_le.mpr outweighed.length_le) (by norm_num)
    · rw [sum, sum]
      exact outweighed.sum_le effortOfRisk_nonneg effortOfRisk_mono
  have scaled : (base less + added less) * effortFactor milder ≤
      (base more + added more) * effortFactor graver :=
    mul_le_mul summed (effortFactor_mono graded) (effortFactor_nonneg milder)
      (nonneg.trans summed)
  exact Effort.le_of_imp (fun many => many.trans_le scaled) fun several => several.trans_le scaled

theorem estimateEffort_perm (reordered : less.Perm more) (overall : OverallRisk) :
    estimateEffort less overall = estimateEffort more overall := by
  unfold estimateEffort
  rw [Scalar.sum_eq_sum, Scalar.sum_eq_sum, reordered.length_eq, (reordered.map _).sum_eq]

end Summary

/-- How an effort depends on the affected modules. -/
structure RisesWithRisk (effort : List (AffectedModule Rat) → Effort) : Prop where
  inserted : ∀ before after item, effort (before ++ after) ≤ effort (before ++ item :: after)
  raised : ∀ before after item risk, item.risk ≤ risk →
    effort (before ++ item :: after) ≤ effort (before ++ { item with risk := risk } :: after)
  reordered : ∀ affected others, affected.Perm others → effort affected = effort others

/-- The efforts of testing and of shipping a change do not fall when modules are added or risks
rise, wherever the modules stand in the list, nor does the effort of shipping fall when the change
as a whole is riskier. -/
theorem efforts_riseWithRisk :
    (∀ change, RisesWithRisk fun affected => TestImpact.estimateEffort affected change) ∧
    (∀ overall, RisesWithRisk fun affected => Summary.estimateEffort affected overall) ∧
    ∀ (affected : List (AffectedModule Rat)) (lower higher : OverallRisk), lower ≤ higher →
      Summary.estimateEffort affected lower ≤ Summary.estimateEffort affected higher := by
  refine ⟨fun change => ?_, fun overall => ?_, fun affected lower higher graded => ?_⟩
  · exact
      { inserted := fun before after item =>
          TestImpact.estimateEffort_mono (.insert before after item) (Nat.le_refl _)
        raised := fun before after item risk graded =>
          TestImpact.estimateEffort_mono (.raise before after graded) (Nat.le_refl _)
        reordered := fun affected others reordered =>
          TestImpact.estimateEffort_perm reordered change }
  · exact
      { inserted := fun before after item =>
          Summary.estimateEffort_mono (.insert before after item) (Nat.le_refl _)
        raised := fun before after item risk graded =>
          Summary.estimateEffort_mono (.raise before after graded) (Nat.le_refl _)
        reordered := fun affected others reordered =>
          Summary.estimateEffort_perm reordered overall }
  · exact Summary.estimateEffort_mono (.refl affected) graded

/-- A module of which only the risk matters. -/
def moduleAt (risk : RiskLevel) : AffectedModule Rat where
  path := "core"
  language := "rust"
  distance := 1
  strength := .strong
  kind := none
  coverage := 0
  score := 0
  risk := risk
  tags := []
  reason := ""
  features := []

/-- A sixth module at high risk makes testing take high effort. -/
theorem efforts_riseWithRisk_sixth :
    let others := List.replicate 5 (moduleAt .high)
    TestImpact.estimateEffort (others ++ [moduleAt .medium]) .addition = .medium ∧
      TestImpact.estimateEffort (others ++ [moduleAt .high]) .addition = .high ∧
      TestImpact.estimateEffort (others ++ [moduleAt .medium]) .addition ≤
        TestImpact.estimateEffort (others ++ [moduleAt .high]) .addition := by
  refine ⟨by decide +kernel, by decide +kernel, ?_⟩
  exact (efforts_riseWithRisk.1 .addition).raised _ [] (moduleAt .medium) .high (by decide)

end ChangeImpact
