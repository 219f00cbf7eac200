import Mathlib.Data.List.Induction
import Mathlib.Data.List.ReduceOption
import Mathlib.Data.Option.Basic

/-!
# Keys that age

A table keeps an entry for a key from one sighting to the next, and drops it when
the key has not been sighted for more than a number of rounds. The history of a key
is the list of its rounds, oldest first, each with a sighting or without one. An
entry has a life: it starts with a sighting, and only those up to its end belong
to it.
-/

namespace Ageing

universe u v

variable {α : Type u}

/-- The rounds since the last sighting, and the sightings of this life in order. -/
structure Life (α : Type u) where
  unseen : Nat
  sightings : List α
  deriving DecidableEq, Repr

/-- One round. -/
def round (limit : Nat) (held : Option (Life α)) : Option α → Option (Life α)
  | some sighting => some ⟨0, held.elim [] Life.sightings ++ [sighting]⟩
  | none => held.bind fun life =>
      if life.unseen + 1 ≤ limit then some ⟨life.unseen + 1, life.sightings⟩ else none

/-- The rounds of a history, from an entry on. -/
def lifeFrom (limit : Nat) (held : Option (Life α)) (history : List (Option α)) :
    Option (Life α) :=
  history.foldl (round limit) held

/-- The rounds since the last sighting, whatever has become of the entry. -/
def gapFrom (last : Option Nat) (history : List (Option α)) : Option Nat :=
  history.foldl (fun last now => if now.isSome then some 0 else last.map (· + 1)) last

/-- The number of rounds without a sighting since the last one, if there was one. -/
def gap (history : List (Option α)) : Option Nat := gapFrom none history

/-- Every sighting comes at most `limit` rounds after the one before. -/
def Paced (limit : Nat) : Option Nat → List (Option α) → Prop
  | _, [] => True
  | last, none :: rest => Paced limit (last.map (· + 1)) rest
  | last, some _ :: rest => (∀ gap ∈ last, gap ≤ limit) ∧ Paced limit (some 0) rest

/-- A sighting that differs from the one before comes more than `limit` rounds
after it. -/
def Separate (limit : Nat) : Option (Nat × α) → List (Option α) → Prop
  | _, [] => True
  | last, none :: rest => Separate limit (last.map fun (gap, other) => (gap + 1, other)) rest
  | last, some sighting :: rest =>
      (∀ gap other, last = some (gap, other) → gap ≤ limit → other = sighting) ∧
        Separate limit (some (0, sighting)) rest

/-- All sightings of a life are the same. -/
def Life.Uniform (life : Life α) : Prop :=
  ∀ first ∈ life.sightings, ∀ second ∈ life.sightings, first = second

variable {limit : Nat}

/-! ## When a key is held -/

/-- A round without a sighting. -/
theorem unseen_round_none (held : Option (Life α)) :
    (round limit held none).map Life.unseen =
      ((held.map Life.unseen).map (· + 1)).filter (· ≤ limit) := by
  cases held with
  | none => rfl
  | some life =>
      simp only [round, Option.bind_some, Option.map_some, Option.filter_some, decide_eq_true_eq]
      split <;> rfl

/-- What has been dropped does not come back by waiting. -/
theorem filter_succ (last : Option Nat) :
    ((last.filter (· ≤ limit)).map (· + 1)).filter (· ≤ limit) =
      (last.map (· + 1)).filter (· ≤ limit) := by
  cases last with
  | none => rfl
  | some gap =>
      by_cases early : gap ≤ limit
      · simp [Option.filter_some, early]
      · have late : ¬ gap + 1 ≤ limit := by omega
        simp [Option.filter_some, early, late]

/-- A key is held exactly when its last sighting is not too long ago. -/
theorem unseen_lifeFrom {held : Option (Life α)} {last : Option Nat}
    (agree : held.map Life.unseen = last.filter (· ≤ limit)) (history : List (Option α)) :
    (lifeFrom limit held history).map Life.unseen =
      (gapFrom last history).filter (· ≤ limit) := by
  induction history generalizing held last with
  | nil => exact agree
  | cons now rest ih =>
      apply ih
      cases now with
      | some sighting => simp [round, Option.filter_some]
      | none =>
          rw [unseen_round_none, agree, filter_succ]
          rfl

theorem isSome_lifeFrom_iff (limit : Nat) (history : List (Option α)) :
    (lifeFrom limit none history).isSome ↔ ∃ rounds ∈ gap history, rounds ≤ limit := by
  have agree : (none : Option (Life α)).map Life.unseen = none.filter (· ≤ limit) := rfl
  have unseen := unseen_lifeFrom agree history
  rw [← Option.isSome_map (f := Life.unseen), unseen, Option.isSome_filter]
  simp only [gap, Option.any_eq_true, decide_eq_true_eq, Option.mem_def]

/-- The gap counts the rounds behind the last sighting. -/
theorem gap_behind (older : List (Option α)) (last : α) (rounds : Nat) :
    gap (older ++ some last :: List.replicate rounds none) = some rounds := by
  have waits : ∀ rounds since : Nat,
      gapFrom (some since) (List.replicate rounds (none : Option α)) =
        some (since + rounds) := by
    intro rounds
    induction rounds with
    | zero => exact fun _ => rfl
    | succ rounds ih =>
        intro since
        exact (ih (since + 1)).trans (congrArg some (Nat.succ_add_eq_add_succ since rounds))
  rw [gap, gapFrom, List.foldl_append, List.foldl_cons]
  exact (waits rounds 0).trans (congrArg some (Nat.zero_add rounds))

/-- The last sighting stands in front of the rounds without one. -/
theorem split_of_gap {history : List (Option α)} {rounds : Nat}
    (since : gap history = some rounds) :
    ∃ older last, history = older ++ some last :: List.replicate rounds none := by
  induction history using List.reverseRecOn generalizing rounds with
  | nil => contradiction
  | append_singleton history now ih =>
      rw [gap, gapFrom, List.foldl_append, List.foldl_cons, List.foldl_nil] at since
      cases now with
      | some last =>
          cases since
          exact ⟨history, last, rfl⟩
      | none =>
          rcases Option.map_eq_some_iff.mp since with ⟨fewer, before, rfl⟩
          rcases ih before with ⟨older, last, rfl⟩
          refine ⟨older, last, ?_⟩
          rw [List.replicate_succ', List.append_assoc, List.cons_append]

/-- After a round an entry is new exactly when it was sighted. -/
theorem unseen_eq_zero_iff {held : Option (Life α)} {now : Option α} {life : Life α}
    (goes : round limit held now = some life) : life.unseen = 0 ↔ now.isSome := by
  cases now with
  | some sighting =>
      cases goes
      exact iff_of_true rfl rfl
  | none =>
      rcases Option.bind_eq_some_iff.mp goes with ⟨before, _, older⟩
      split at older
      next =>
        cases older
        exact iff_of_false (Nat.succ_ne_zero _) nofun
      next => contradiction

/-! ## Paced histories -/

/-- Once its last sighting is too long ago, a paced history has no more of them. -/
theorem lifeFrom_dead {last : Nat} (late : limit < last) {history : List (Option α)}
    (paced : Paced limit (some last) history) : lifeFrom limit none history = none := by
  induction history generalizing last with
  | nil => rfl
  | cons now rest ih =>
      cases now with
      | some sighting => exact absurd (paced.1 last rfl) (Nat.not_le.mpr late)
      | none => exact ih (Nat.lt_succ_of_lt late) paced

/-- A life in a paced history has all the sightings. -/
theorem sightings_lifeFrom {held : Option (Life α)} {history : List (Option α)}
    (paced : Paced limit (held.map Life.unseen) history) {life : Life α}
    (alive : lifeFrom limit held history = some life) :
    life.sightings = held.elim [] Life.sightings ++ history.reduceOption := by
  induction history generalizing held with
  | nil =>
      cases alive
      simp
  | cons now rest ih =>
      cases now with
      | some sighting =>
          have starts : Paced limit ((round limit held (some sighting)).map Life.unseen) rest :=
            paced.2
          rw [ih starts alive, List.reduceOption_cons_of_some]
          simp [round]
      | none =>
          cases held with
          | none => exact ih paced alive
          | some earlier =>
              by_cases early : earlier.unseen + 1 ≤ limit
              · have goes : round limit (some earlier) none =
                    some ⟨earlier.unseen + 1, earlier.sightings⟩ := if_pos early
                have later : Paced limit ((round limit (some earlier) none).map Life.unseen)
                    rest := by
                  rw [goes]
                  exact paced
                rw [ih later alive, goes]
                rfl
              · have stops : round limit (some earlier) none = none := if_neg early
                rw [lifeFrom, List.foldl_cons, stops] at alive
                have dead := lifeFrom_dead (Nat.lt_of_not_le early) paced
                exact absurd (dead.symm.trans alive) nofun

/-- Two sightings in a row in a paced history. -/
theorem Paced.between {last : Option Nat} {older newer : List (Option α)}
    {first second : α} {rounds : Nat}
    (paced : Paced limit last
      (older ++ some first :: (List.replicate rounds none ++ some second :: newer))) :
    rounds ≤ limit := by
  induction older generalizing last with
  | nil =>
      have waits : ∀ (rounds : Nat) last,
          Paced limit (some last) (List.replicate rounds none ++ some second :: newer) →
          last + rounds ≤ limit := by
        intro rounds
        induction rounds with
        | zero => exact fun last paced => paced.1 last rfl
        | succ rounds ih =>
            intro last paced
            have later := ih (last + 1) paced
            omega
      have bound := waits rounds 0 paced.2
      omega
  | cons now older ih =>
      cases now with
      | some sighting => exact ih paced.2
      | none => exact ih paced

/-! ## Lives of one kind -/

/-- The entry before a round agrees with the sighting before it. -/
def Joined (limit : Nat) (held : Option (Life α)) (last : Option (Nat × α)) : Prop :=
  match held, last with
  | some life, some (gap, sighting) =>
      life.unseen = gap ∧ gap ≤ limit ∧ sighting ∈ life.sightings ∧
        ∀ other ∈ life.sightings, other = sighting
  | none, some (gap, _) => limit < gap
  | none, none => True
  | some _, none => False

theorem Joined.uniform {held : Option (Life α)} {last : Option (Nat × α)}
    (joined : Joined limit held last) : ∀ life ∈ held, life.Uniform := by
  rintro life ⟨⟩
  cases last with
  | none => exact joined.elim
  | some last =>
      intro first inFirst second inSecond
      rw [joined.2.2.2 first inFirst, joined.2.2.2 second inSecond]

theorem Joined.wait {held : Option (Life α)} {last : Option (Nat × α)}
    (joined : Joined limit held last) :
    Joined limit (round limit held none) (last.map fun (gap, other) => (gap + 1, other)) := by
  cases held with
  | none =>
      cases last with
      | none => exact joined
      | some last => exact Nat.lt_succ_of_lt joined
  | some life =>
      cases last with
      | none => exact joined.elim
      | some last =>
          rcases last with ⟨gap, sighting⟩
          rcases joined with ⟨rfl, _, among, all⟩
          by_cases early : life.unseen + 1 ≤ limit
          · have goes : round limit (some life) none =
                some ⟨life.unseen + 1, life.sightings⟩ := if_pos early
            rw [goes]
            exact ⟨rfl, early, among, all⟩
          · have stops : round limit (some life) none = none := if_neg early
            rw [stops]
            exact Nat.lt_of_not_le early

/-- A sighting fits when it is the same as the one before or comes late. -/
theorem Joined.sight {held : Option (Life α)} {last : Option (Nat × α)}
    (joined : Joined limit held last) {sighting : α}
    (fits : ∀ gap other, last = some (gap, other) → gap ≤ limit → other = sighting) :
    Joined limit (round limit held (some sighting)) (some (0, sighting)) := by
  refine ⟨rfl, Nat.zero_le _, List.mem_append_right _ (List.mem_singleton_self _), ?_⟩
  intro other member
  cases held with
  | none => simpa using member
  | some life =>
      cases last with
      | none => exact joined.elim
      | some last =>
          rcases last with ⟨gap, former⟩
          rcases joined with ⟨_, early, _, all⟩
          rcases List.mem_append.mp member with old | new
          · rw [all other old]
            exact fits gap former rfl early
          · exact List.mem_singleton.mp new

theorem Joined.fits {held : Option (Life α)} {last : Option (Nat × α)}
    (joined : Joined limit held last) {sighting : α}
    (uniform : ∀ life ∈ round limit held (some sighting), life.Uniform) :
    ∀ gap other, last = some (gap, other) → gap ≤ limit → other = sighting := by
  rintro gap other rfl early
  cases held with
  | none => exact absurd early (Nat.not_le.mpr joined)
  | some life =>
      rcases joined with ⟨_, _, among, _⟩
      exact uniform _ rfl other (List.mem_append_left _ among) sighting
        (List.mem_append_right _ (List.mem_singleton_self _))

/-- At every moment the sightings of a life are the same, exactly when different
sightings are separated. -/
theorem uniform_iff_separate {held : Option (Life α)} {last : Option (Nat × α)}
    (joined : Joined limit held last) (history : List (Option α)) :
    (∀ earlier, earlier <+: history →
        ∀ life ∈ lifeFrom limit held earlier, life.Uniform) ↔
      Separate limit last history := by
  induction history generalizing held last with
  | nil =>
      refine iff_of_true ?_ trivial
      intro earlier initial
      rw [List.prefix_nil.mp initial]
      exact joined.uniform
  | cons now rest ih =>
      have split : (∀ earlier, earlier <+: now :: rest →
            ∀ life ∈ lifeFrom limit held earlier, life.Uniform) ↔
          ∀ earlier, earlier <+: rest →
            ∀ life ∈ lifeFrom limit (round limit held now) earlier, life.Uniform := by
        constructor
        · intro uniform earlier initial
          exact uniform (now :: earlier) ((List.prefix_cons_inj now).mpr initial)
        · intro uniform earlier initial
          cases earlier with
          | nil => exact joined.uniform
          | cons first earlier =>
              rcases List.cons_prefix_cons.mp initial with ⟨rfl, later⟩
              exact uniform earlier later
      rw [split]
      cases now with
      | none => exact ih joined.wait
      | some sighting =>
          constructor
          · intro uniform
            have fits := joined.fits (uniform [] List.nil_prefix)
            exact ⟨fits, (ih (joined.sight fits)).mp uniform⟩
          · rintro ⟨fits, separate⟩
            exact (ih (joined.sight fits)).mpr separate

/-- Nothing is seen. -/
theorem separate_replicate (last : Option (Nat × α)) (count : Nat) :
    Separate limit last (.replicate count none) := by
  induction count generalizing last with
  | zero => trivial
  | succ count ih => exact ih _

/-- Renaming the sightings keeps them separate, if it keeps them different. -/
theorem separate_map_iff {β : Type v} {rename : α → β} {among : α → Prop}
    (injective : ∀ first second, among first → among second →
      rename first = rename second → first = second)
    {last : Option (Nat × α)} (known : ∀ gap sighting, last = some (gap, sighting) →
      among sighting)
    {history : List (Option α)} (all : ∀ sighting, some sighting ∈ history → among sighting) :
    Separate limit (last.map fun (gap, sighting) => (gap, rename sighting))
        (history.map (Option.map rename)) ↔
      Separate limit last history := by
  induction history generalizing last with
  | nil => rfl
  | cons now rest ih =>
      have later := fun sighting member => all sighting (List.mem_cons_of_mem _ member)
      cases now with
      | none =>
          cases last with
          | none =>
              have nothing : ∀ gap sighting, (none : Option (Nat × α)) = some (gap, sighting) →
                  among sighting := nofun
              exact ih nothing later
          | some last =>
              rcases last with ⟨gap, former⟩
              have waits : ∀ rounds sighting, some (gap + 1, former) = some (rounds, sighting) →
                  among sighting := by
                rintro _ _ ⟨⟩
                exact known gap former rfl
              exact ih waits later
      | some sighting =>
          have here := all sighting List.mem_cons_self
          have starts : ∀ rounds other, some (0, sighting) = some (rounds, other) →
              among other := by
            rintro _ _ ⟨⟩
            exact here
          have rest := ih starts later
          refine and_congr ?_ rest
          cases last with
          | none => exact iff_of_true nofun nofun
          | some last =>
              rcases last with ⟨gap, former⟩
              constructor
              · rintro fits _ _ ⟨⟩ early
                exact injective _ _ (known gap former rfl) here (fits gap _ rfl early)
              · rintro fits _ _ ⟨⟩ early
                exact congrArg rename (fits gap former rfl early)

end Ageing
