import KhadasYolo.Lib.Extent
import KhadasYolo.Tracker.Runs

/-!
# Stability of the matching

In exact arithmetic the matching loop takes the pair with the largest overlap in every
round. A pair that overlaps is never left behind for a smaller overlap on both sides, and
the loop ends when no pair is left.
-/

namespace KhadasYolo.Tracker

section Exact

attribute [local instance] FloatOps.exactMath

/-- A detection and a track of its class overlap by more than the threshold. -/
structure Overlap (dets : List (TrackerDetection ℝ)) (tracks : List (Track ℝ)) (d t : Nat)
    (v : ℝ) : Prop where
  boxes : ∃ det track, dets[d]? = some det ∧ tracks[t]? = some track ∧
    sameClass det track.det = true ∧ iou det track.det = v
  above : kIouThreshold < v

/-- The matching pairs a detection with a track. -/
def Matching.Pairs (m : Matching) (d t : Nat) : Prop := m.detToTrack[d]? = some (some t)

variable {dets : List (TrackerDetection ℝ)} {tracks : List (Track ℝ)} {m : Matching}
  {d t e s : Nat} {v w : ℝ}

theorem Overlap.unique (first : Overlap dets tracks d t v) (second : Overlap dets tracks d t w) :
    v = w := by
  rcases first.boxes with ⟨det, track, inDets, inTracks, _, same⟩
  rcases second.boxes with ⟨_, _, inDets', inTracks', _, same'⟩
  cases inDets.symm.trans inDets'
  cases inTracks.symm.trans inTracks'
  exact same.symm.trans same'

/-! ## One search -/

/-- What a search has found so far. -/
structure Found (dets : List (TrackerDetection ℝ)) (tracks : List (Track ℝ))
    (best : Best ℝ) : Prop where
  least : kIouThreshold ≤ best.iou
  pair : ∀ d t, best.pair = some (d, t) → Overlap dets tracks d t best.iou
  none : best.pair = none → best.iou = kIouThreshold

/-- One pair is compared with the best one. -/
theorem considerPair_cases (m : Matching) (d : Nat) (best : Best ℝ) (t : Nat) :
    considerPair dets tracks m d best t = best ∨
      ∃ det track, dets[d]? = some det ∧ tracks[t]? = some track ∧
        sameClass det track.det = true ∧ best.iou < iou det track.det ∧
          considerPair dets tracks m d best t = ⟨iou det track.det, some (d, t)⟩ := by
  rw [considerPair]
  split
  next => exact .inl rfl
  next =>
    split
    next det track inDets inTracks =>
      split
      next => exact .inl rfl
      next same =>
        dsimp only
        split
        next less =>
          refine .inr ⟨det, track, inDets, inTracks, by simpa using same, ?_, rfl⟩
          exact of_decide_eq_true less
        next => exact .inl rfl
    next => exact .inl rfl

theorem considerPair_grows (m : Matching) (d : Nat) (best : Best ℝ) (t : Nat) :
    best.iou ≤ (considerPair dets tracks m d best t).iou := by
  rcases considerPair_cases m d best t with same | ⟨_, _, _, _, _, less, next⟩
  · rw [same]
  · rw [next]
    exact less.le

theorem Found.consider {best : Best ℝ} (found : Found dets tracks best) (m : Matching)
    (d t : Nat) : Found dets tracks (considerPair dets tracks m d best t) := by
  rcases considerPair_cases m d best t with
    same | ⟨det, track, inDets, inTracks, alike, less, next⟩
  · rw [same]
    exact found
  · rw [next]
    refine ⟨found.least.trans less.le, ?_, nofun⟩
    rintro _ _ ⟨⟩
    exact ⟨⟨det, track, inDets, inTracks, alike, rfl⟩, found.least.trans_lt less⟩

theorem bestPair_found (m : Matching) : Found dets tracks (bestPair dets tracks m) := by
  refine List.foldlRecOn (motive := Found dets tracks) _ _ ⟨le_rfl, nofun, fun _ => rfl⟩ ?_
  intro best found d _
  split
  next => exact found
  next =>
    refine List.foldlRecOn (motive := Found dets tracks) _ _ found ?_
    exact fun best found t _ => found.consider m d t

/-- The search finds the largest overlap of a free pair. -/
theorem le_bestPair (free : Candidate dets tracks m d t) (overlap : Overlap dets tracks d t v) :
    v ≤ (bestPair dets tracks m).iou := by
  rcases overlap.boxes with ⟨det, track, inDets, inTracks, alike, same⟩
  have inner (d : Nat) (best : Best ℝ) : best.iou ≤
      ((List.range tracks.length).foldl (considerPair dets tracks m d) best).iou :=
    Extent.le_foldl (considerPair_grows m d) best _
  have inDetRange := List.mem_range.mpr (List.getElem?_eq_some_iff.mp inDets).1
  have inTrackRange := List.mem_range.mpr (List.getElem?_eq_some_iff.mp inTracks).1
  have unused := free.unused
  have unmatched := free.unmatched
  -- the step of the outer loop at the detection, and of the inner loop at the track
  have outer (best : Best ℝ) (d : Nat) : best.iou ≤
      (if (m.detToTrack.getD d none).isSome then best
        else (List.range tracks.length).foldl (considerPair dets tracks m d) best).iou := by
    split
    next => exact le_rfl
    next => exact inner d best
  have atTrack (best : Best ℝ) : v ≤ (considerPair dets tracks m d best t).iou := by
    rw [considerPair, unused, inDets, inTracks]
    simp only [Bool.false_eq_true, if_false, alike, Bool.not_true, same]
    split
    next => exact le_rfl
    next less => exact not_lt.mp fun below => less (decide_eq_true below)
  rw [bestPair]
  apply Extent.le_foldl_of_mem outer inDetRange
  intro best
  rw [unmatched]
  exact Extent.le_foldl_of_mem (considerPair_grows m d) inTrackRange atTrack best

/-! ## The loop -/

/-- Every pair overlaps, and a pair that overlaps is free or one of the two has a larger
overlap. -/
structure Settled (dets : List (TrackerDetection ℝ)) (tracks : List (Track ℝ))
    (m : Matching) : Prop where
  valid : m.Valid dets tracks
  above : ∀ d t, m.Pairs d t → ∃ v, Overlap dets tracks d t v
  settled : ∀ d t v, Overlap dets tracks d t v → Candidate dets tracks m d t ∨
    (∃ s w, m.Pairs d s ∧ Overlap dets tracks d s w ∧ v ≤ w) ∨
      ∃ e w, m.Pairs e t ∧ Overlap dets tracks e t w ∧ v ≤ w

theorem settled_start : Settled dets tracks
    { detToTrack := .replicate dets.length none
      trackUsed := .replicate tracks.length false } where
  valid := Matching.valid_start
  above d t pair := by simp [Matching.Pairs, List.getElem?_replicate] at pair
  settled d t v overlap := by
    rcases overlap.boxes with ⟨det, track, inDets, inTracks, alike, _⟩
    have inRange := (List.getElem?_eq_some_iff.mp inTracks).1
    refine .inl ⟨?_, ?_, det, track, inDets, inTracks, alike⟩
    · rw [List.getD_eq_getElem?_getD, List.getElem?_replicate]
      split <;> rfl
    · rw [List.getD_eq_getElem?_getD, List.getElem?_replicate, if_pos inRange]
      rfl

/-- A round takes the best pair. -/
theorem Settled.take (settled : Settled dets tracks m)
    (best : (bestPair dets tracks m).pair = some (d, t)) :
    Settled dets tracks
      { detToTrack := m.detToTrack.set d (some t)
        trackUsed := m.trackUsed.set t true } := by
  have candidate := bestPair_candidate best
  have overlap := (bestPair_found m).pair d t best
  have pairs {e s : Nat} := @Candidate.matched_iff ℝ dets tracks m d t settled.valid candidate e s
  have new : Matching.Pairs
      { detToTrack := m.detToTrack.set d (some t), trackUsed := m.trackUsed.set t true } d t :=
    pairs.mpr (.inl ⟨rfl, rfl⟩)
  constructor
  · exact settled.valid.take candidate
  · intro e s pair
    rcases pairs.mp pair with ⟨rfl, rfl⟩ | ⟨_, _, earlier⟩
    · exact ⟨_, overlap⟩
    · exact settled.above e s earlier
  · intro e s v other
    have keeps {e s : Nat} (pair : m.Pairs e s) : Matching.Pairs
        { detToTrack := m.detToTrack.set d (some t), trackUsed := m.trackUsed.set t true }
        e s := by
      apply pairs.mpr
      refine .inr ⟨?_, ?_, pair⟩
      · rintro rfl
        cases (candidate.slot_free settled.valid).symm.trans pair
      · rintro rfl
        exact candidate.track_free settled.valid e pair
    rcases settled.settled e s v other with free | ⟨r, w, pair, larger, le⟩ | ⟨r, w, pair, larger, le⟩
    · have smaller := le_bestPair free other
      by_cases sameDet : e = d
      · subst sameDet
        exact .inr (.inl ⟨t, _, new, overlap, smaller⟩)
      by_cases sameTrack : s = t
      · subst sameTrack
        exact .inr (.inr ⟨d, _, new, overlap, smaller⟩)
      · -- Neither is taken in this round.
        refine .inl ⟨?_, ?_, free.alike⟩
        · have unmatched := free.unmatched
          rw [List.getD_eq_getElem?_getD] at unmatched ⊢
          rwa [List.getElem?_set_ne (Ne.symm sameDet)]
        · have unused := free.unused
          rw [List.getD_eq_getElem?_getD] at unused ⊢
          rwa [List.getElem?_set_ne (Ne.symm sameTrack)]
    · exact .inr (.inl ⟨r, w, keeps pair, larger, le⟩)
    · exact .inr (.inr ⟨r, w, keeps pair, larger, le⟩)

theorem Settled.rounds (settled : Settled dets tracks m) (rounds : Nat) :
    Settled dets tracks (matchRounds dets tracks rounds m) := by
  induction rounds generalizing m with
  | zero => exact settled
  | succ rounds ih =>
      rw [matchRounds]
      split
      next => exact settled
      next d t best => exact ih (settled.take best)

/-- Nothing free overlaps when the search finds nothing. -/
theorem Settled.unblocked (settled : Settled dets tracks m)
    (ended : (bestPair dets tracks m).pair = none) (overlap : Overlap dets tracks d t v) :
    (∃ s w, m.Pairs d s ∧ Overlap dets tracks d s w ∧ v ≤ w) ∨
      ∃ e w, m.Pairs e t ∧ Overlap dets tracks e t w ∧ v ≤ w := by
  apply (settled.settled d t v overlap).resolve_left
  intro free
  have small := le_bestPair free overlap
  rw [(bestPair_found m).none ended] at small
  exact absurd overlap.above (not_lt.mpr small)

end Exact

/-! ## The end of the loop -/

section Rounds

universe u

variable {F : Type u} [FloatMath F] {dets : List (TrackerDetection F)}
  {tracks : List (Track F)} {m : Matching}

/-- As many rounds as there are free tracks are enough as well. -/
theorem matchRounds_done_of_tracks {rounds : Nat} (valid : m.Valid dets tracks)
    (enough : m.trackUsed.count false ≤ rounds) :
    (bestPair dets tracks (matchRounds dets tracks rounds m)).pair = none := by
  induction rounds generalizing m with
  | zero =>
      rw [matchRounds, Option.eq_none_iff_forall_ne_some]
      rintro ⟨d, t⟩ found
      have candidate := bestPair_candidate found
      have inRange := candidate.inTracks valid
      have unused := candidate.unused
      rw [List.getD_eq_getElem _ _ inRange] at unused
      have counted := List.count_pos_iff.mpr (List.mem_of_getElem unused)
      omega
  | succ rounds ih =>
      rw [matchRounds]
      split
      next ended => exact ended
      next d t found =>
        have candidate := bestPair_candidate found
        have inRange := candidate.inTracks valid
        have unused := candidate.unused
        rw [List.getD_eq_getElem _ _ inRange] at unused
        apply ih (valid.take candidate)
        rw [List.count_set inRange, unused]
        simp only [beq_self_eq_true, if_true, Bool.true_eq_false, beq_iff_eq, if_false]
        omega

/-- No round comes after the one that finds nothing. -/
theorem matchRounds_ended {rounds : Nat} (more : Nat)
    (ended : (bestPair dets tracks (matchRounds dets tracks rounds m)).pair = none) :
    matchRounds dets tracks (rounds + more) m = matchRounds dets tracks rounds m := by
  induction rounds generalizing m with
  | zero =>
      rw [matchRounds] at ended
      rw [Nat.zero_add]
      cases more with
      | zero => rfl
      | succ more => simp only [matchRounds, ended]
  | succ rounds ih =>
      rw [Nat.succ_add, matchRounds]
      rw [matchRounds] at ended
      rw [matchRounds]
      split
      next => rfl
      next d t found =>
        rw [found] at ended
        exact ih ended

/-- The loop ends after as many rounds as there are detections, or tracks. -/
theorem matchRounds_eq_greedyMatch {rounds : Nat}
    (enough : min dets.length tracks.length ≤ rounds) :
    matchRounds dets tracks rounds
        { detToTrack := .replicate dets.length none
          trackUsed := .replicate tracks.length false } = greedyMatch dets tracks := by
  have done : (bestPair dets tracks (matchRounds dets tracks (min dets.length tracks.length)
      { detToTrack := .replicate dets.length none
        trackUsed := .replicate tracks.length false })).pair = none := by
    rcases min_choice dets.length tracks.length with fewer | fewer
    · rw [fewer]
      exact matchRounds_done Matching.valid_start (by simp)
    · rw [fewer]
      exact matchRounds_done_of_tracks Matching.valid_start (by simp)
  have first := matchRounds_ended (rounds - min dets.length tracks.length) done
  have second := matchRounds_ended (dets.length - min dets.length tracks.length) done
  rw [Nat.add_sub_cancel' enough] at first
  rw [Nat.add_sub_cancel' (Nat.min_le_left _ _)] at second
  rw [first, greedyMatch, second]

end Rounds

/-! ## The ids of matched detections -/

section Ids

universe u

variable {F : Type u}

/-- A detection has an output, with the id of its track if it is matched. -/
theorem placeDetection_id (frameId : UInt64) (u : Updating F)
    (entry : TrackerDetection F × Option Nat)
    (inRange : ∀ t : Nat, entry.2 = some t → t < u.tracks.length) :
    idsOf u.tracks <+: idsOf (placeDetection frameId u entry).tracks ∧
      ∃ o, (placeDetection frameId u entry).outputs = u.outputs ++ [o] ∧
        ∀ t : Nat, entry.2 = some t → (idsOf u.tracks)[t]? = some o.trackId := by
  rcases entry with ⟨det, slot⟩
  cases slot with
  | none =>
      refine ⟨?_, _, rfl, nofun⟩
      rw [placeDetection, idsOf, idsOf, List.map_append]
      exact List.prefix_append _ _
  | some t =>
      have known := inRange t rfl
      have held := List.getElem?_eq_getElem known
      have id : (idsOf u.tracks)[t]? = some u.tracks[t].id := by
        rw [idsOf, List.getElem?_map, held]
        rfl
      simp only [placeDetection, held]
      refine ⟨?_, _, rfl, ?_⟩
      · rw [idsOf, idsOf, List.map_set, ← List.getElem_map Track.id]
        · rw [List.set_getElem_self]
        · rwa [List.length_map]
      · rintro _ ⟨⟩
        exact id

theorem placeAll_id (frameId : UInt64) {u : Updating F}
    {entries : List (TrackerDetection F × Option Nat)}
    (inRange : ∀ t : Nat, some t ∈ entries.map Prod.snd → t < u.tracks.length) :
    ∃ news, (entries.foldl (placeDetection frameId) u).outputs = u.outputs ++ news ∧
      ∀ d t : Nat, (entries.map Prod.snd)[d]? = some (some t) →
        ∃ o, news[d]? = some o ∧ (idsOf u.tracks)[t]? = some o.trackId := by
  induction entries generalizing u with
  | nil => exact ⟨[], (List.append_nil _).symm, nofun⟩
  | cons entry rest ih =>
      have first := placeDetection_id frameId u entry fun t slot =>
        inRange t (by rw [List.map_cons, slot]; exact List.mem_cons_self)
      rcases first with ⟨initial, o, outputs, id⟩
      have longer := initial.length_le
      rw [idsOf, idsOf, List.length_map, List.length_map] at longer
      have later := @ih (placeDetection frameId u entry) fun t slot =>
        (inRange t (List.mem_cons_of_mem _ slot)).trans_le longer
      rcases later with ⟨news, more, ids⟩
      refine ⟨o :: news, ?_, ?_⟩
      · rw [List.foldl_cons, more, outputs, List.append_assoc, List.singleton_append]
      · intro d t place
        cases d with
        | zero => exact ⟨o, rfl, id t (Option.some.inj place)⟩
        | succ d =>
            rw [List.map_cons, List.getElem?_cons_succ] at place
            rcases ids d t place with ⟨other, shown, same⟩
            refine ⟨other, shown, ?_⟩
            rwa [getElem?_of_initial initial] at same
            rw [idsOf, List.length_map]
            exact inRange t (List.mem_cons_of_mem _ (List.mem_of_getElem? place))

/-- A matched detection is output with the id of its track. -/
theorem update_id [FloatMath F] (self : IouTracker F) (frameId : UInt64)
    {dets : List (TrackerDetection F)} {d t : Nat}
    (pair : (greedyMatch dets self.tracks).Pairs d t) :
    ∃ o, (self.update frameId dets).1[d]? = some o ∧
      (idsOf self.tracks)[t]? = some o.trackId := by
  have slots := List.map_snd_zip (Nat.le_of_eq (length_detToTrack dets self.tracks))
  have inRange : ∀ t : Nat, some t ∈ (dets.zip
      (greedyMatch dets self.tracks).detToTrack).map Prod.snd → t < self.tracks.length := by
    intro t slot
    rw [slots] at slot
    exact matched_inRange slot
  rcases placeAll_id frameId (u := ⟨self.tracks, self.nextId, []⟩) inRange with
    ⟨news, outputs, ids⟩
  rw [slots] at ids
  rw [IouTracker.update, outputs]
  exact ids d t pair

end Ids

/-! ## The whole frame -/

section Frame

attribute [local instance] FloatOps.exactMath

/-- Each detection overlaps one track of its class, and each track one detection. -/
structure OneToOne (dets : List (TrackerDetection ℝ)) (tracks : List (Track ℝ)) : Prop where
  eachDet : ∀ d < dets.length, ∃! t, ∃ v, Overlap dets tracks d t v
  eachTrack : ∀ t < tracks.length, ∃! d, ∃ v, Overlap dets tracks d t v

/-- What `update` makes of the overlaps of a frame. -/
structure StableMatching (tracker : IouTracker ℝ) (frameId : UInt64)
    (dets : List (TrackerDetection ℝ)) (m : Matching) : Prop where
  /-- the loop ends after so many assignments -/
  ends : ∀ rounds, min dets.length tracker.tracks.length ≤ rounds →
    matchRounds dets tracker.tracks rounds
      { detToTrack := .replicate dets.length none
        trackUsed := .replicate tracker.tracks.length false } = m
  done : (bestPair dets tracker.tracks m).pair = none
  injective : ∀ {d e t}, m.Pairs d t → m.Pairs e t → d = e
  above : ∀ d t, m.Pairs d t → ∃ v, Overlap dets tracker.tracks d t v
  unblocked : ∀ d t v, Overlap dets tracker.tracks d t v →
    (∃ s w, m.Pairs d s ∧ Overlap dets tracker.tracks d s w ∧ v ≤ w) ∨
      ∃ e w, m.Pairs e t ∧ Overlap dets tracker.tracks e t w ∧ v ≤ w
  keeps : OneToOne dets tracker.tracks → ∀ d t v, Overlap dets tracker.tracks d t v →
    ∃ o, (tracker.update frameId dets).1[d]? = some o ∧
      (idsOf tracker.tracks)[t]? = some o.trackId

/-- The matching loop of a frame yields a stable matching. -/
theorem stable_matching (self : IouTracker ℝ) (frameId : UInt64)
    (dets : List (TrackerDetection ℝ)) :
    StableMatching self frameId dets (greedyMatch dets self.tracks) := by
  have settled : Settled dets self.tracks (greedyMatch dets self.tracks) :=
    settled_start.rounds dets.length
  have done := greedyMatch_done dets self.tracks
  constructor
  · exact fun rounds enough => matchRounds_eq_greedyMatch enough
  · exact done
  · exact fun first second => settled.valid.injective first second
  · exact settled.above
  · exact fun d t v overlap => settled.unblocked done overlap
  · intro oneToOne d t v overlap
    apply update_id
    rcases overlap.boxes with ⟨det, track, inDets, inTracks, _, _⟩
    have inRange := (List.getElem?_eq_some_iff.mp inDets).1
    have inRange' := (List.getElem?_eq_some_iff.mp inTracks).1
    rcases settled.unblocked done overlap with ⟨s, w, pair, other, _⟩ | ⟨e, w, pair, other, _⟩
    · have same := (oneToOne.eachDet d inRange).unique ⟨w, other⟩ ⟨v, overlap⟩
      rwa [same] at pair
    · have same := (oneToOne.eachTrack t inRange').unique ⟨w, other⟩ ⟨v, overlap⟩
      rwa [same] at pair

end Frame

end KhadasYolo.Tracker
