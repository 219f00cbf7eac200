import KhadasYolo.Lib.TransitionSystem
import Mathlib.Data.List.Basic

/-!
# Ranked runs

A rank that every counted step lowers and no other step raises bounds the number
of counted steps of a run.  The bound holds for every schedule, so a component
whose steps are counted cannot be kept going by the steps of the others.
-/

namespace TransitionSystem

universe u v

namespace System

variable {State : Type u} {Label : Type v}

/-- A rank for the steps `counted`, on the states of a property that all steps
keep. -/
structure Ranking (system : System State Label) (valid : State → Prop)
    (counted : Label → Bool) where
  rank : State → Nat
  keeps : ∀ {before label after}, valid before →
    system.step before label = some after → valid after
  lowers : ∀ {before label after}, valid before →
    system.step before label = some after → counted label = true →
    rank after < rank before
  levels : ∀ {before label after}, valid before →
    system.step before label = some after → counted label = false →
    rank after ≤ rank before

namespace Ranking

variable {system : System State Label} {valid : State → Prop}
  {counted : Label → Bool}

/-- The counted steps of a run and what is left of the rank behind it. -/
theorem countP_add_rank_le (ranking : Ranking system valid counted)
    {first last : State} {schedule : List Label} (start : valid first)
    (run : system.replay unrestricted first schedule = some last) :
    schedule.countP counted + ranking.rank last ≤ ranking.rank first ∧
      valid last := by
  induction schedule generalizing first with
  | nil =>
      cases run
      exact ⟨by simp, start⟩
  | cons label rest ih =>
      simp only [replay, unrestricted] at run
      cases taken : system.step first label with
      | none => simp [taken] at run
      | some next =>
          rw [taken] at run
          rcases ih (ranking.keeps start taken) run with ⟨bound, kept⟩
          refine ⟨?_, kept⟩
          cases counts : counted label with
          | true =>
              have lower := ranking.lowers start taken counts
              simp only [List.countP_cons, counts, if_true]
              omega
          | false =>
              have level := ranking.levels start taken counts
              simp only [List.countP_cons, counts, Bool.false_eq_true, if_false]
              omega

end Ranking

end System

end TransitionSystem
