import Mathlib.Data.Finset.Card
import Mathlib.Data.List.Nodup
import Mathlib.Tactic

/-! Support of a candidate by a number of distinct members. -/
namespace Quorum
variable {ι κ : Type*}

/-- At least `k` members stand for the candidate. -/
def Supported (k : ℕ) (member standsFor : ι → Prop) : Prop :=
  ∃ supporters : Finset ι, k ≤ supporters.card ∧ ∀ i ∈ supporters, member i ∧ standsFor i

lemma Supported.of_le {k l : ℕ} {member standsFor : ι → Prop} (h : Supported l member standsFor)
    (hle : k ≤ l) : Supported k member standsFor := by
  obtain ⟨supporters, hcard, hsupport⟩ := h
  exact ⟨supporters, hle.trans hcard, hsupport⟩

lemma exists_supporters [DecidableEq ι] {supports : ι → Prop} {votes : List κ} (voteOf : ι → κ)
    (hnodup : votes.Nodup) (hvotes : ∀ vote ∈ votes, ∃ i, supports i ∧ voteOf i = vote) :
    ∃ supporters : Finset ι, supporters.card = votes.length ∧
      ∀ i ∈ supporters, supports i ∧ voteOf i ∈ votes := by
  induction votes with
  | nil => exact ⟨∅, by simp, by simp⟩
  | cons vote votes ih =>
    obtain ⟨hnew, hnodup⟩ := List.nodup_cons.1 hnodup
    obtain ⟨supporters, hcard, hsupport⟩ := ih hnodup fun v hv => hvotes v (by simp [hv])
    obtain ⟨i, hi, hvote⟩ := hvotes vote (by simp)
    have hfresh : i ∉ supporters := by
      intro hmem
      apply hnew
      rw [← hvote]
      exact (hsupport i hmem).2
    refine ⟨insert i supporters, by simp [Finset.card_insert_of_notMem hfresh, hcard], ?_⟩
    intro j hj
    cases Finset.mem_insert.1 hj with
    | inl heq =>
      subst heq
      exact ⟨hi, by simp [hvote]⟩
    | inr hmem => exact ⟨(hsupport j hmem).1, List.mem_cons_of_mem _ (hsupport j hmem).2⟩

/-- Distinct votes that are each the vote of some supporting member. -/
theorem supported_of_votes [DecidableEq ι] {member standsFor : ι → Prop} {votes : List κ}
    (voteOf : ι → κ) (hnodup : votes.Nodup)
    (hvotes : ∀ vote ∈ votes, ∃ i, (member i ∧ standsFor i) ∧ voteOf i = vote) :
    Supported votes.length member standsFor := by
  obtain ⟨supporters, hcard, hsupport⟩ := exists_supporters voteOf hnodup hvotes
  exact ⟨supporters, hcard.ge, fun i hi => (hsupport i hi).1⟩

end Quorum
