import Mathlib.Data.Finset.Max
import Mathlib.Data.List.Basic

/-!
# Greedy selection

Elements are ranked, and some of them are in conflict with elements of a lower rank. The
greedy selection keeps an element when it is in conflict with no kept one. A sweep
reaches the same end in another way: it visits the elements, and one that is still
there strikes out all that it is in conflict with. What a sweep leaves depends on the
order of its visits, unless the right elements come in time.
-/

namespace Greedy

universe u v

/-! ## Ranks -/

/-- A rank is kept when no kept rank before it is in conflict with it. -/
def Kept (conflict : Nat → Nat → Prop) (j : Nat) : Prop :=
  ∀ i, (before : i < j) → conflict i j → ¬ Kept conflict i
termination_by j

variable {conflict : Nat → Nat → Prop} {j : Nat}

theorem kept_iff : Kept conflict j ↔ ∀ i < j, conflict i j → ¬ Kept conflict i := by
  rw [Kept]

/-- Nothing else satisfies the equation of the selection. -/
theorem kept_unique {count : Nat} {chosen : Nat → Prop}
    (equation : ∀ j < count, chosen j ↔ ∀ i < j, conflict i j → ¬ chosen i) :
    ∀ j < count, chosen j ↔ Kept conflict j := by
  intro j
  induction j using Nat.strongRecOn with
  | ind j ih =>
      intro below
      rw [equation j below, kept_iff]
      exact forall₂_congr fun i before =>
        imp_congr_right fun _ => not_congr (ih i before (before.trans below))

/-! ## Lists -/

section Select

variable {α : Type u} (overlaps : α → α → Bool)

/-- The greedy selection from a list. -/
def select (kept : List α) : List α → List α
  | [] => kept
  | a :: rest =>
      if kept.any (overlaps · a) then select kept rest else select (kept ++ [a]) rest

theorem select_append (kept first second : List α) :
    select overlaps kept (first ++ second) =
      select overlaps (select overlaps kept first) second := by
  induction first generalizing kept with
  | nil => rfl
  | cons a first ih =>
      rw [List.cons_append, select, select]
      split
      next => exact ih kept
      next => exact ih (kept ++ [a])

theorem prefix_select (kept xs : List α) : kept <+: select overlaps kept xs := by
  induction xs generalizing kept with
  | nil => exact List.prefix_rfl
  | cons a xs ih =>
      rw [select]
      split
      next => exact ih kept
      next => exact (List.prefix_append kept [a]).trans (ih (kept ++ [a]))

theorem select_concat (xs : List α) (a : α) :
    select overlaps [] (xs ++ [a]) =
      if (select overlaps [] xs).any (overlaps · a) then select overlaps [] xs
      else select overlaps [] xs ++ [a] := by
  rw [select_append]
  rfl

theorem select_sublist (xs : List α) : (select overlaps [] xs).Sublist xs := by
  induction xs using List.reverseRecOn with
  | nil => exact .refl _
  | append_singleton xs a ih =>
      rw [select_concat]
      split
      next => exact ih.trans (List.sublist_append_left xs [a])
      next => exact ih.append (.refl [a])

/-- No two selected elements overlap. -/
theorem select_pairwise (xs : List α) :
    (select overlaps [] xs).Pairwise fun a b => overlaps a b = false := by
  induction xs using List.reverseRecOn with
  | nil => exact .nil
  | append_singleton xs a ih =>
      rw [select_concat]
      split
      next => exact ih
      next free =>
        rw [List.any_eq_true, not_exists] at free
        refine List.pairwise_append.mpr ⟨ih, List.pairwise_singleton _ _, ?_⟩
        intro b member other last
        rw [List.mem_singleton.mp last]
        exact Bool.eq_false_iff.mpr fun overlap => free b ⟨member, overlap⟩

/-- An element is selected, or it overlaps one that has been selected before. -/
theorem select_split (before : List α) (a : α) (after : List α) :
    select overlaps [] before ++ [a] <+: select overlaps [] (before ++ a :: after) ∨
      select overlaps [] before <+: select overlaps [] (before ++ a :: after) ∧
        ∃ b ∈ select overlaps [] before, overlaps b a = true := by
  rw [select_append, select]
  split
  next overlap =>
    exact .inr ⟨prefix_select overlaps _ after, List.any_eq_true.mp overlap⟩
  next => exact .inl (prefix_select overlaps _ after)

/-- The same, when the selection is cut. -/
theorem select_take_split (limit : Nat) (before : List α) (a : α) (after : List α) :
    let kept := (select overlaps [] (before ++ a :: after)).take limit
    select overlaps [] before ++ [a] <+: kept ∨
      (∃ b ∈ kept, b ∈ before ∧ overlaps b a = true) ∨
      kept <+: select overlaps [] before ∧ kept.length = limit := by
  intro kept
  have full {earlier : List α}
      (grows : earlier <+: select overlaps [] (before ++ a :: after))
      (many : limit ≤ earlier.length) : kept <+: earlier ∧ kept.length = limit := by
    have length : kept.length = limit :=
      List.length_take_of_le (many.trans grows.length_le)
    exact ⟨List.prefix_of_prefix_length_le (List.take_prefix _ _) grows
      (length.trans_le many), length⟩
  rcases select_split overlaps before a after with grows | ⟨grows, b, member, overlap⟩
  · by_cases room : (select overlaps [] before).length < limit
    · refine .inl (List.prefix_take_iff.mpr ⟨grows, ?_⟩)
      rwa [List.length_append, List.length_singleton]
    · exact .inr (.inr (full ((List.prefix_append _ _).trans grows) (not_lt.mp room)))
  · by_cases room : (select overlaps [] before).length ≤ limit
    · have held := (List.prefix_take_iff.mpr ⟨grows, room⟩).subset member
      exact .inr (.inl ⟨b, held, (select_sublist overlaps before).subset member, overlap⟩)
    · exact .inr (.inr (full grows (not_le.mp room).le))

/-- The selection from a ranked family is the kept ranks. -/
theorem select_range {member : Nat → α} {alive : Nat → Bool} {count : Nat}
    (equation : ∀ j < count, alive j = true ↔
      ∀ i < j, overlaps (member i) (member j) = true → alive i = false) :
    select overlaps [] ((List.range count).map member) =
      ((List.range count).filter alive).map member := by
  induction count with
  | zero => rfl
  | succ count ih =>
      have earlier := ih fun j below => equation j (Nat.lt_succ_of_lt below)
      have last := equation count (Nat.lt_succ_self count)
      rw [List.range_succ, List.map_append, List.map_singleton, select_concat, earlier,
        List.filter_append, List.map_append]
      cases kept : alive count with
      | true =>
          have free := last.mp kept
          rw [if_neg, List.filter_cons_of_pos kept]
          · rfl
          · simp only [List.any_map, List.any_filter, List.any_eq_true, List.mem_range,
              Function.comp_apply, not_exists, not_and]
            intro i before conflicts
            rw [Bool.and_eq_true] at conflicts
            exact Bool.false_ne_true ((free i before conflicts.2).symm.trans conflicts.1)
      | false =>
          have struck : ¬ ∀ i < count, overlaps (member i) (member count) = true →
              alive i = false := fun free => by
            rw [last.mpr free] at kept
            contradiction
          rw [if_pos, List.filter_cons_of_neg (by rw [kept]; exact Bool.false_ne_true)]
          · exact (List.append_nil _).symm
          · simp only [not_forall, Bool.not_eq_false] at struck
            rcases struck with ⟨i, before, overlap, survives⟩
            simp only [List.any_map, List.any_filter, List.any_eq_true, List.mem_range]
            exact ⟨i, before, by rw [survives]; exact overlap⟩

end Select

/-! ## Sweeps -/

section Sweep

variable {γ : Type v} [LinearOrder γ] (conflict : Nat → Nat → Prop) (visit : Nat → γ)

/-- A rank is still there when it is visited. -/
def Live : Nat → Prop := Kept fun i j => visit i < visit j ∧ conflict i j

/-- It is still there after the sweep. -/
def Survives (j : Nat) : Prop := ∀ i < j, conflict i j → ¬ Live conflict visit i

/-- The visit of a rank strikes out another one. -/
structure Strikes (i j : Nat) : Prop where
  before : i < j
  hits : conflict i j
  live : Live conflict visit i
  first : ∀ k < j, conflict k j → Live conflict visit k → ¬ visit k < visit i

/-- Ranks are struck out by surviving ones of their kind, and survivors of one kind are
not in conflict. -/
structure Sound (alike : Nat → Nat → Prop) : Prop where
  strikes : ∀ i j, Strikes conflict visit i j → alike i j ∧ Survives conflict visit i
  apart : ∀ i j, i < j → Survives conflict visit i → Survives conflict visit j → alike i j →
    ¬ conflict i j

/-- The greedy selection within each kind. -/
def Chosen (alike : Nat → Nat → Prop) : Nat → Prop :=
  Kept fun i j => alike i j ∧ conflict i j

/-- No chosen rank in conflict with this one is visited before it. -/
def Free (alike : Nat → Nat → Prop) (i : Nat) : Prop :=
  ∀ g < i, Chosen conflict alike g → conflict g i → ¬ visit g < visit i

/-- By the time that a free rank in conflict with another one is visited, a chosen one of
the same kind has been. -/
def InTime (alike : Nat → Nat → Prop) : Prop :=
  ∀ j, ∀ i < j, conflict i j → Free conflict visit alike i →
    ∃ g < j, Chosen conflict alike g ∧ alike g j ∧ conflict g j ∧ visit g ≤ visit i

variable {conflict visit} {alike : Nat → Nat → Prop} {i j : Nat}

theorem live_iff : Live conflict visit j ↔
    ∀ i < j, visit i < visit j → conflict i j → ¬ Live conflict visit i := by
  rw [Live, kept_iff]
  exact forall₂_congr fun i _ => and_imp

theorem Survives.live (survives : Survives conflict visit j) : Live conflict visit j :=
  live_iff.mpr fun i before _ => survives i before

theorem chosen_iff : Chosen conflict alike j ↔
    ∀ i < j, alike i j → conflict i j → ¬ Chosen conflict alike i := by
  rw [Chosen, kept_iff]
  exact forall₂_congr fun i _ => and_imp

/-- Of some ranks one is visited first. -/
theorem exists_first (visit : Nat → γ) (among : Nat → Prop) (before : i < j)
    (member : among i) :
    ∃ k < j, among k ∧ visit k ≤ visit i ∧ ∀ l < j, among l → ¬ visit l < visit k := by
  classical
  have nonempty : ((Finset.range j).filter among).Nonempty :=
    ⟨i, Finset.mem_filter.mpr ⟨Finset.mem_range.mpr before, member⟩⟩
  rcases Finset.exists_min_image _ visit nonempty with ⟨k, first, least⟩
  rcases Finset.mem_filter.mp first with ⟨below, chosen⟩
  refine ⟨k, Finset.mem_range.mp below, chosen,
    least i (Finset.mem_filter.mpr ⟨Finset.mem_range.mpr before, member⟩), ?_⟩
  intro l other present
  exact not_lt.mpr (least l (Finset.mem_filter.mpr ⟨Finset.mem_range.mpr other, present⟩))

/-- What is in conflict with a live rank is struck out by the first of these. -/
theorem exists_strikes (before : i < j) (conflicts : conflict i j)
    (live : Live conflict visit i) : ∃ k, visit k ≤ visit i ∧ Strikes conflict visit k j := by
  have member : conflict i j ∧ Live conflict visit i := ⟨conflicts, live⟩
  rcases exists_first visit (fun k => conflict k j ∧ Live conflict visit k) before member with
    ⟨k, below, ⟨strikes, present⟩, early, first⟩
  exact ⟨k, early, below, strikes, present, fun l other hits lives =>
    first l other ⟨hits, lives⟩⟩

/-- In a sound sweep the survivors are the greedy selection. -/
theorem Sound.survives_iff (sound : Sound conflict visit alike) (j : Nat) :
    Survives conflict visit j ↔ Chosen conflict alike j := by
  refine kept_unique (fun j _ => ?_) j (Nat.lt_succ_self j)
  constructor
  · rintro survives i before ⟨same, conflicts⟩ other
    exact sound.apart i j before other survives same conflicts
  · intro chosen i before conflicts live
    rcases exists_strikes before conflicts live with ⟨k, _, strikes⟩
    rcases sound.strikes k j strikes with ⟨same, survives⟩
    exact chosen k strikes.before ⟨same, strikes.hits⟩ survives

theorem Sound.inTime (sound : Sound conflict visit alike) : InTime conflict visit alike := by
  intro j i before conflicts free
  have live : Live conflict visit i := by
    refine live_iff.mpr fun k below early hits present => ?_
    rcases exists_strikes below hits present with ⟨l, earlier, strikes⟩
    have survives := (sound.strikes l i strikes).2
    exact free l strikes.before ((sound.survives_iff l).mp survives) strikes.hits
      (earlier.trans_lt early)
  rcases exists_strikes before conflicts live with ⟨g, early, strikes⟩
  rcases sound.strikes g j strikes with ⟨same, survives⟩
  exact ⟨g, strikes.before, (sound.survives_iff g).mp survives, same, strikes.hits, early⟩

namespace InTime

variable (inTime : InTime conflict visit alike)

include inTime

/-- No free rank is in conflict with a chosen one. -/
theorem not_free (chosen : Chosen conflict alike j) (before : i < j) (conflicts : conflict i j) :
    ¬ Free conflict visit alike i := by
  intro free
  rcases inTime j i before conflicts free with ⟨g, below, other, same, hits, _⟩
  exact chosen_iff.mp chosen g below same hits other

theorem free_of_chosen (chosen : Chosen conflict alike j) : Free conflict visit alike j := by
  induction j using Nat.strongRecOn with
  | ind j ih =>
      intro g below other conflicts
      exact absurd (ih g below other) (inTime.not_free chosen below conflicts)

theorem live_iff_free (i : Nat) : Live conflict visit i ↔ Free conflict visit alike i := by
  induction i using Nat.strongRecOn with
  | ind i ih =>
      constructor
      · intro live g below chosen conflicts early
        exact live_iff.mp live g below early conflicts
          ((ih g below).mpr (inTime.free_of_chosen chosen))
      · intro free
        refine live_iff.mpr fun k below early conflicts live => ?_
        rcases inTime i k below conflicts ((ih k below).mp live) with
          ⟨g, before, chosen, _, hits, earlier⟩
        exact free g before chosen hits (earlier.trans_lt early)

theorem sound (injective : Function.Injective visit) : Sound conflict visit alike where
  strikes i j strikes := by
    rcases inTime j i strikes.before strikes.hits
      ((inTime.live_iff_free i).mp strikes.live) with ⟨g, below, chosen, same, hits, early⟩
    have live := (inTime.live_iff_free g).mpr (inTime.free_of_chosen chosen)
    -- No live rank is visited before the one that strikes.
    have this : g = i :=
      injective (le_antisymm early (not_lt.mp (strikes.first g below hits live)))
    subst this
    refine ⟨same, fun k before conflicts present => ?_⟩
    exact inTime.not_free chosen before conflicts ((inTime.live_iff_free k).mp present)
  apart i j before survives other _ conflicts := other i before conflicts survives.live

end InTime

/-- A sweep is sound exactly when the right ranks come in time. -/
theorem sound_iff_inTime (injective : Function.Injective visit) :
    Sound conflict visit alike ↔ InTime conflict visit alike :=
  ⟨Sound.inTime, fun inTime => inTime.sound injective⟩

end Sweep

/-! ## Running a sweep -/

section Run

variable {γ : Type v} [LinearOrder γ] {conflicts : Nat → Nat → Bool} {visit : Nat → γ}
  {first second : List Nat}

/-- The visit of a rank. -/
def strike (conflicts : Nat → Nat → Bool) (alive : Nat → Bool) (i j : Nat) : Bool :=
  alive j && !(alive i && conflicts i j)

/-- The visits of a list. -/
def sweep (conflicts : Nat → Nat → Bool) (visits : List Nat) : Nat → Bool :=
  visits.foldl (strike conflicts) fun _ => true

theorem sweep_concat (visits : List Nat) (i : Nat) :
    sweep conflicts (visits ++ [i]) = strike conflicts (sweep conflicts visits) i := by
  rw [sweep, List.foldl_append]
  rfl

/-- All visits of a sweep, in their order. -/
structure Schedule (conflicts : Nat → Nat → Bool) (visit : Nat → γ) (visits : List Nat) :
    Prop where
  ordered : visits.Pairwise fun i j => visit i < visit j
  complete : ∀ i j, conflicts i j = true → i ∈ visits
  ranked : ∀ i j, conflicts i j = true → i < j

/-- The visits before one are those that come earlier. -/
theorem Schedule.mem_before {i k : Nat} (schedule : Schedule conflicts visit (first ++ i :: second))
    {j : Nat} (conflict : conflicts k j = true) : k ∈ first ↔ visit k < visit i := by
  have ordered := List.pairwise_append.mp schedule.ordered
  constructor
  · exact fun member => ordered.2.2 k member i List.mem_cons_self
  · intro early
    rcases List.mem_append.mp (schedule.complete k j conflict) with before | behind
    · exact before
    · rcases List.mem_cons.mp behind with rfl | later
      · exact absurd early (lt_irrefl _)
      · exact absurd early (lt_asymm (List.rel_of_pairwise_cons ordered.2.1 later))

/-- A rank that no live one before has struck out is live when it is visited. -/
theorem Schedule.free_iff_live {i : Nat}
    (schedule : Schedule conflicts visit (first ++ i :: second)) :
    (∀ k ∈ first, conflicts k i = true → ¬ Live (fun i j => conflicts i j = true) visit k) ↔
      Live (fun i j => conflicts i j = true) visit i := by
  rw [live_iff]
  constructor
  · exact fun free k _ early conflict =>
      free k ((schedule.mem_before conflict).mpr early) conflict
  · exact fun free k member conflict =>
      free k (schedule.ranked k i conflict) ((schedule.mem_before conflict).mp member) conflict

theorem strike_iff {alive : Nat → Bool} {i j : Nat} : strike conflicts alive i j = true ↔
    alive j = true ∧ (conflicts i j = true → ¬ alive i = true) := by
  rw [strike]
  cases alive i <;> cases conflicts i j <;> simp

/-- In the middle of a sweep. -/
theorem Schedule.sweep_iff (schedule : Schedule conflicts visit (first ++ second)) (j : Nat) :
    sweep conflicts first j = true ↔ ∀ i ∈ first, conflicts i j = true →
      ¬ Live (fun i j => conflicts i j = true) visit i := by
  induction first using List.reverseRecOn generalizing second j with
  | nil => exact iff_of_true rfl nofun
  | append_singleton first i ih =>
      rw [List.append_assoc, List.singleton_append] at schedule
      rw [sweep_concat, strike_iff, ih schedule, ih schedule, schedule.free_iff_live,
        List.forall_mem_append, List.forall_mem_singleton]

/-- After the whole sweep. -/
theorem Schedule.survives_iff {visits : List Nat} (schedule : Schedule conflicts visit visits)
    (j : Nat) : sweep conflicts visits j = true ↔
      Survives (fun i j => conflicts i j = true) visit j := by
  have whole := schedule
  rw [← List.append_nil visits] at whole
  rw [whole.sweep_iff]
  constructor
  · exact fun free i _ conflict => free i (schedule.complete i j conflict) conflict
  · exact fun survives i _ conflict => survives i (schedule.ranked i j conflict) conflict

/-- The visit that strikes out a rank. -/
theorem Schedule.strikes_iff {i : Nat}
    (schedule : Schedule conflicts visit (first ++ i :: second)) (j : Nat) :
    sweep conflicts first j = true ∧ ¬ sweep conflicts (first ++ [i]) j = true ↔
      Strikes (fun i j => conflicts i j = true) visit i j := by
  rw [sweep_concat, strike_iff, schedule.sweep_iff, schedule.sweep_iff,
    schedule.free_iff_live, not_and, Classical.not_imp, not_not]
  constructor
  · rintro ⟨free, struck⟩
    rcases struck free with ⟨conflict, live⟩
    exact ⟨schedule.ranked i j conflict, conflict, live, fun k _ hits present early =>
      free k ((schedule.mem_before hits).mpr early) hits present⟩
  · intro strikes
    refine ⟨fun k member hits present => ?_, fun _ => ⟨strikes.hits, strikes.live⟩⟩
    exact strikes.first k (schedule.ranked k j hits) hits present
      ((schedule.mem_before hits).mp member)

end Run

end Greedy
