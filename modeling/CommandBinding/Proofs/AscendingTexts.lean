import CommandBinding.Words
import Mathlib.Data.String.Basic

/-!
Lists of texts in strictly ascending order, as `ascending` makes them.
-/
namespace CommandBinding

theorem pairwise_insertAscending {text : String} {texts : List String} (h : texts.Pairwise (· < ·)) :
    (insertAscending text texts).Pairwise (· < ·) := by
  induction texts with
  | nil => simp [insertAscending]
  | cons first rest ih =>
    obtain ⟨hfirst, hrest⟩ := List.pairwise_cons.mp h
    unfold insertAscending
    split
    · exact h
    · next hne =>
      split
      · next hlt =>
        refine List.pairwise_cons.mpr ⟨fun other hother => ?_, h⟩
        rcases List.mem_cons.mp hother with rfl | hother
        · exact hlt
        · exact lt_trans hlt (hfirst other hother)
      · next hlt =>
        refine List.pairwise_cons.mpr ⟨fun other hother => ?_, ih hrest⟩
        rcases mem_insertAscending.mp hother with rfl | hother
        · exact (lt_or_gt_of_ne hne).resolve_left hlt
        · exact hfirst other hother

theorem pairwise_ascending (texts : List String) : (ascending texts).Pairwise (· < ·) := by
  induction texts with
  | nil => exact List.Pairwise.nil
  | cons text texts ih => exact pairwise_insertAscending ih

theorem nodup_ascending (texts : List String) : (ascending texts).Nodup := by
  apply (pairwise_ascending texts).imp
  rintro text _ hlt rfl
  exact lt_irrefl text hlt

end CommandBinding
