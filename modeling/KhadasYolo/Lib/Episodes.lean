import KhadasYolo.Lib.Ageing
import Mathlib.Data.List.DropRight

/-!
# Episodes of a key

The current episode of a key that ages: its rounds since it was away for too long,
from the first sighting on. While the key is held, this is what its entry has been
through; how long a history is before the episode does not matter.
-/

namespace Ageing

universe u

variable {α : Type u}

/-- The last sighting is at most `limit` rounds ago. -/
def Recent (limit : Nat) (history : List (Option α)) : Prop :=
  ∃ missed ∈ gap history, missed ≤ limit

instance (limit : Nat) (history : List (Option α)) : Decidable (Recent limit history) :=
  decidable_of_iff ((gap history).any (· ≤ limit)) (by
    simp [Recent, Option.any_eq_true])

/-- A history ends with an episode: no pause inside of it is too long, and the one
before it, if there is a sighting before it, is. -/
structure Episode (limit : Nat) (history older episode : List (Option α)) : Prop where
  split : history = older ++ episode
  starts : ∃ first rest, episode = some first :: rest
  unbroken : ¬ List.replicate (limit + 1) none <:+: episode
  apart : (∀ now ∈ older, now = none) ∨ List.replicate (limit + 1) none <:+ older

/-- One round of the entry of a key, kept with all its rounds. -/
def advance (limit : Nat) (held : Option (List (Option α))) (now : Option α) :
    Option (List (Option α)) :=
  match now with
  | some sighting => some (held.getD [] ++ [some sighting])
  | none => (held.map (· ++ [none])).filter fun rounds => Recent limit rounds

/-- The rounds of the entry that a history leaves. -/
def current (limit : Nat) (history : List (Option α)) : Option (List (Option α)) :=
  history.foldl (advance limit) none

variable {limit : Nat}

theorem current_concat (history : List (Option α)) (now : Option α) :
    current limit (history ++ [now]) = advance limit (current limit history) now := by
  rw [current, List.foldl_append]
  rfl

/-! ## Gaps -/

theorem gap_concat_none (history : List (Option α)) :
    gap (history ++ [none]) = (gap history).map (· + 1) := by
  rw [gap, gapFrom, List.foldl_append]
  rfl

theorem gap_concat_some (history : List (Option α)) (sighting : α) :
    gap (history ++ [some sighting]) = some 0 := by
  rw [gap, gapFrom, List.foldl_append]
  rfl

/-- The gap does not depend on what was before a sighting. -/
theorem gap_append (older : List (Option α)) (first : α) (rest : List (Option α)) :
    gap (older ++ some first :: rest) = gap (some first :: rest) := by
  rw [gap, gapFrom, List.foldl_append]
  rfl

theorem Recent.of_wait {history : List (Option α)}
    (recent : Recent limit (history ++ [none])) : Recent limit history := by
  rcases recent with ⟨missed, since, early⟩
  rw [gap_concat_none] at since
  rcases Option.map_eq_some_iff.mp since with ⟨fewer, before, rfl⟩
  exact ⟨fewer, before, by omega⟩

/-- Recent sightings are those among the last rounds. -/
theorem recent_iff_mem_rtake {history : List (Option α)} :
    Recent limit history ↔ ∃ now ∈ history.rtake (limit + 1), now.isSome := by
  induction history using List.reverseRecOn generalizing limit with
  | nil => simp [Recent, gap, gapFrom]
  | append_singleton history now ih =>
      rw [List.rtake_concat_succ]
      cases now with
      | some sighting => simp [Recent, gap_concat_some]
      | none =>
          cases limit with
          | zero => simp [Recent, gap_concat_none, List.rtake_zero]
          | succ limit =>
              have before := @ih limit
              simp only [Recent, Option.mem_def] at before
              simp [Recent, gap_concat_none, before]

/-- A history without a sighting. -/
theorem gap_eq_none_iff {history : List (Option α)} :
    gap history = none ↔ ∀ now ∈ history, now = none := by
  induction history using List.reverseRecOn with
  | nil => exact iff_of_true rfl nofun
  | append_singleton history now ih =>
      rw [List.forall_mem_append]
      cases now with
      | some sighting => simp [gap_concat_some]
      | none => simp [gap_concat_none, ih]

/-- The rounds without a sighting at the end of a history are at most its gap. -/
theorem le_gap_of_suffix {history : List (Option α)} {rounds missed : Nat}
    (pause : List.replicate rounds none <:+ history) (since : gap history = some missed) :
    rounds ≤ missed := by
  rcases split_of_gap since with ⟨older, last, rfl⟩
  by_contra short
  have longer : some last :: List.replicate missed none <:+ List.replicate rounds none :=
    List.suffix_of_suffix_length_le (List.suffix_append _ _) pause (by simp; omega)
  have nothing := List.eq_of_mem_replicate (longer.subset List.mem_cons_self)
  contradiction

/-- Without a recent sighting there is none at all or a long pause behind it. -/
theorem apart_of_not_recent {history : List (Option α)} (late : ¬ Recent limit history) :
    (∀ now ∈ history, now = none) ∨ List.replicate (limit + 1) none <:+ history := by
  cases since : gap history with
  | none => exact .inl (gap_eq_none_iff.mp since)
  | some missed =>
      have long : limit + 1 ≤ missed := by
        by_contra short
        exact late ⟨missed, since, by omega⟩
      rcases split_of_gap since with ⟨older, last, rfl⟩
      right
      have pause : List.replicate (limit + 1) (none : Option α) <:+
          List.replicate missed none :=
        ⟨List.replicate (missed - (limit + 1)) none, by
          rw [List.replicate_append_replicate, Nat.sub_add_cancel long]⟩
      exact pause.trans ((List.suffix_cons _ _).trans (List.suffix_append _ _))

/-! ## The current episode -/

namespace Episode

variable {history older episode : List (Option α)}

/-- An episode is as recent as the history it ends. -/
theorem gap_eq (current : Episode limit history older episode) :
    gap history = gap episode := by
  rcases current.starts with ⟨first, rest, rfl⟩
  rw [current.split, gap_append]

/-- A history has only one current episode. -/
theorem unique {before other : List (Option α)}
    (first : Episode limit history older episode)
    (second : Episode limit history before other) : episode = other := by
  wlog shorter : older.length ≤ before.length generalizing older before episode other
  · exact (this second first (Nat.le_of_not_le shorter)).symm
  have split := first.split.symm.trans second.split
  rcases (List.append_eq_append_iff.mp split) with ⟨between, rfl, rfl⟩ | ⟨between, rfl, rfl⟩
  · cases between with
    | nil => rfl
    | cons now between =>
        rcases first.starts with ⟨sighting, rest, start⟩
        cases start
        rcases second.apart with nothing | pause
        · exact absurd (nothing (some sighting) (by simp)) nofun
        · -- The pause either lies in the longer episode or reaches over its start.
          rcases List.suffix_or_suffix_of_suffix pause (List.suffix_append older _) with
            inside | across
          · exact absurd (inside.isInfix.trans (List.prefix_append _ _).isInfix)
              first.unbroken
          · have nothing := List.eq_of_mem_replicate (across.subset List.mem_cons_self)
            contradiction
  · have none_between : between = [] := by
      rw [List.length_append] at shorter
      exact List.length_eq_zero_iff.mp (by omega)
    subst none_between
    rfl

/-- A first sighting starts an episode. -/
theorem start (late : ¬ Recent limit history) (sighting : α) :
    Episode limit (history ++ [some sighting]) history [some sighting] where
  split := rfl
  starts := ⟨sighting, [], rfl⟩
  unbroken pause := by
    have among := pause.subset (List.mem_replicate.mpr ⟨Nat.succ_ne_zero _, rfl⟩)
    simp at among
  apart := apart_of_not_recent late

/-- A sighting continues the episode. -/
theorem sight (current : Episode limit history older episode) (sighting : α) :
    Episode limit (history ++ [some sighting]) older (episode ++ [some sighting]) where
  split := by rw [current.split, List.append_assoc]
  starts := by
    rcases current.starts with ⟨first, rest, rfl⟩
    exact ⟨first, rest ++ [some sighting], rfl⟩
  unbroken pause := by
    rcases List.infix_concat_iff.mp pause with ends | inside
    · rw [List.replicate_succ', List.suffix_concat_iff] at ends
      simp at ends
    · exact current.unbroken inside
  apart := current.apart

/-- A round without a sighting continues it when the last one stays recent. -/
theorem wait (current : Episode limit history older episode)
    (recent : Recent limit (episode ++ [none])) :
    Episode limit (history ++ [none]) older (episode ++ [none]) where
  split := by rw [current.split, List.append_assoc]
  starts := by
    rcases current.starts with ⟨first, rest, rfl⟩
    exact ⟨first, rest ++ [none], rfl⟩
  unbroken pause := by
    rcases List.infix_concat_iff.mp pause with ends | inside
    · rcases recent with ⟨missed, since, early⟩
      have long := le_gap_of_suffix ends since
      omega
    · exact current.unbroken inside
  apart := current.apart

end Episode

/-- A key is held exactly when its last sighting is recent, and its entry has been
through the current episode. -/
theorem current_spec (limit : Nat) (history : List (Option α)) :
    match current limit history with
    | some rounds => Recent limit history ∧ ∃ older, Episode limit history older rounds
    | none => ¬ Recent limit history := by
  induction history using List.reverseRecOn with
  | nil => simp [current, Recent, gap, gapFrom]
  | append_singleton history now ih =>
      rw [current_concat]
      cases now with
      | some sighting =>
          refine ⟨⟨0, gap_concat_some history sighting, Nat.zero_le _⟩, ?_⟩
          cases held : current limit history with
          | none =>
              rw [held] at ih
              exact ⟨history, .start ih sighting⟩
          | some rounds =>
              rw [held] at ih
              rcases ih with ⟨_, older, episode⟩
              exact ⟨older, episode.sight sighting⟩
      | none =>
          cases held : current limit history with
          | none =>
              rw [held] at ih
              exact mt Recent.of_wait ih
          | some rounds =>
              rw [held] at ih
              rcases ih with ⟨_, older, episode⟩
              have same : Recent limit (history ++ [none]) ↔ Recent limit (rounds ++ [none]) := by
                rw [Recent, Recent, gap_concat_none, gap_concat_none, episode.gap_eq]
              rw [advance, Option.map_some, Option.filter_some]
              by_cases recent : Recent limit (rounds ++ [none])
              · rw [if_pos (decide_eq_true recent)]
                exact ⟨same.mpr recent, older, episode.wait recent⟩
              · rw [if_neg (by simpa using recent)]
                exact mt same.mp recent

end Ageing
