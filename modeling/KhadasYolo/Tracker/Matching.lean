import KhadasYolo.Tracker.IouTracker

/-!
# Greedy matching

Whatever the overlaps are, every round of the matching loop takes a detection and
a track of its class that are both still free. The result pairs them one to one,
and after as many rounds as there are detections no pair is left to take.
-/

namespace KhadasYolo.Tracker

universe u

variable {F : Type u}

/-- The arrays of `update` describe a one-to-one matching within classes. -/
structure Matching.Valid (dets : List (TrackerDetection F)) (tracks : List (Track F))
    (m : Matching) : Prop where
  detsLength : m.detToTrack.length = dets.length
  tracksLength : m.trackUsed.length = tracks.length
  alike : ∀ {d t : Nat}, m.detToTrack[d]? = some (some t) →
    ∃ det track, dets[d]? = some det ∧ tracks[t]? = some track ∧
      sameClass det track.det = true
  used : ∀ t : Nat,
    m.trackUsed[t]? = some true ↔ ∃ d : Nat, m.detToTrack[d]? = some (some t)
  injective : ∀ {d e t : Nat}, m.detToTrack[d]? = some (some t) →
    m.detToTrack[e]? = some (some t) → d = e

/-- A pair that a search may return. -/
structure Candidate (dets : List (TrackerDetection F)) (tracks : List (Track F))
    (m : Matching) (d t : Nat) : Prop where
  unmatched : m.detToTrack.getD d none = none
  unused : m.trackUsed.getD t true = false
  alike : ∃ det track, dets[d]? = some det ∧ tracks[t]? = some track ∧
    sameClass det track.det = true

variable {dets : List (TrackerDetection F)} {tracks : List (Track F)} {m : Matching}

/-- The arrays before the first round. -/
theorem Matching.valid_start :
    Matching.Valid dets tracks
      { detToTrack := .replicate dets.length none
        trackUsed := .replicate tracks.length false } where
  detsLength := List.length_replicate
  tracksLength := List.length_replicate
  alike matched := by simp [List.getElem?_replicate] at matched
  used t := by simp [List.getElem?_replicate]
  injective matched := by simp [List.getElem?_replicate] at matched

namespace Candidate

variable {d t : Nat} (valid : m.Valid dets tracks) (candidate : Candidate dets tracks m d t)

include valid candidate

theorem inDets : d < m.detToTrack.length := by
  rcases candidate.alike with ⟨_, _, found, _, _⟩
  rw [valid.detsLength]
  exact (List.getElem?_eq_some_iff.mp found).1

theorem inTracks : t < m.trackUsed.length := by
  rcases candidate.alike with ⟨_, _, _, held, _⟩
  rw [valid.tracksLength]
  exact (List.getElem?_eq_some_iff.mp held).1

theorem slot_free : m.detToTrack[d]? = some none := by
  have inRange := candidate.inDets valid
  have unmatched := candidate.unmatched
  rw [List.getD_eq_getElem _ _ inRange] at unmatched
  rw [List.getElem?_eq_getElem inRange, unmatched]

/-- No detection has the track. -/
theorem track_free (e : Nat) : m.detToTrack[e]? ≠ some (some t) := by
  intro matched
  have inUse := (valid.used t).mpr ⟨e, matched⟩
  have unused := candidate.unused
  rw [List.getD_eq_getElem?_getD, inUse] at unused
  contradiction

/-- Once the pair is taken, the matched pairs are this one and the earlier ones. -/
theorem matched_iff {e s : Nat} :
    (m.detToTrack.set d (some t))[e]? = some (some s) ↔
      (e = d ∧ s = t) ∨ (e ≠ d ∧ s ≠ t ∧ m.detToTrack[e]? = some (some s)) := by
  by_cases this : e = d
  · subst this
    rw [List.getElem?_set_self (candidate.inDets valid)]
    simp [eq_comm]
  · rw [List.getElem?_set_ne (Ne.symm this)]
    constructor
    · intro matched
      refine .inr ⟨this, ?_, matched⟩
      rintro rfl
      exact candidate.track_free valid e matched
    · rintro (⟨same, _⟩ | ⟨_, _, matched⟩)
      · exact absurd same this
      · exact matched

end Candidate

/-- A round keeps the matching valid. -/
theorem Matching.Valid.take (valid : m.Valid dets tracks) {d t : Nat}
    (candidate : Candidate dets tracks m d t) :
    Matching.Valid dets tracks
      { detToTrack := m.detToTrack.set d (some t)
        trackUsed := m.trackUsed.set t true } := by
  constructor
  · rw [List.length_set, valid.detsLength]
  · rw [List.length_set, valid.tracksLength]
  · intro e s matched
    rcases (candidate.matched_iff valid).mp matched with ⟨rfl, rfl⟩ | ⟨_, _, earlier⟩
    · exact candidate.alike
    · exact valid.alike earlier
  · intro s
    by_cases this : s = t
    · subst this
      rw [List.getElem?_set_self (candidate.inTracks valid)]
      exact iff_of_true rfl ⟨d, (candidate.matched_iff valid).mpr (.inl ⟨rfl, rfl⟩)⟩
    · rw [List.getElem?_set_ne (Ne.symm this), valid.used s]
      constructor
      · rintro ⟨e, matched⟩
        have other : e ≠ d := by
          rintro rfl
          rw [candidate.slot_free valid] at matched
          cases matched
        exact ⟨e, (candidate.matched_iff valid).mpr (.inr ⟨other, this, matched⟩)⟩
      · rintro ⟨e, matched⟩
        rcases (candidate.matched_iff valid).mp matched with ⟨_, same⟩ | ⟨_, _, earlier⟩
        · contradiction
        · exact ⟨e, earlier⟩
  · intro e f s first second
    rcases (candidate.matched_iff valid).mp first with ⟨rfl, rfl⟩ | ⟨_, new, earlier⟩
    · rcases (candidate.matched_iff valid).mp second with ⟨rfl, _⟩ | ⟨_, old, _⟩
      · rfl
      · contradiction
    · rcases (candidate.matched_iff valid).mp second with ⟨_, rfl⟩ | ⟨_, _, again⟩
      · contradiction
      · exact valid.injective earlier again

variable [FloatMath F]

/-- A search only returns candidates. -/
theorem bestPair_candidate {d t : Nat} (found : (bestPair dets tracks m).pair = some (d, t)) :
    Candidate dets tracks m d t := by
  let Sound (best : Best F) : Prop :=
    ∀ d t, best.pair = some (d, t) → Candidate dets tracks m d t
  suffices sound : Sound (bestPair dets tracks m) from sound d t found
  refine List.foldlRecOn (motive := Sound) _ _ (fun _ _ => nofun) ?_
  intro best soFar d _
  split
  next => exact soFar
  next unmatched =>
    refine List.foldlRecOn (motive := Sound) _ _ soFar ?_
    intro best soFar t _
    simp only [considerPair]
    split
    next => exact soFar
    next unused =>
      split
      next det track inDets inTracks =>
        split
        next => exact soFar
        next same =>
          split
          next =>
            rintro _ _ ⟨⟩
            exact ⟨by simpa using unmatched, by simpa using unused, det, track, inDets,
              inTracks, by simpa using same⟩
          next => exact soFar
      next => exact soFar

theorem matchRounds_valid (rounds : Nat) (valid : m.Valid dets tracks) :
    (matchRounds dets tracks rounds m).Valid dets tracks := by
  induction rounds generalizing m with
  | zero => exact valid
  | succ rounds ih =>
      rw [matchRounds]
      split
      next => exact valid
      next d t found => exact ih (valid.take (bestPair_candidate found))

theorem greedyMatch_valid (dets : List (TrackerDetection F)) (tracks : List (Track F)) :
    (greedyMatch dets tracks).Valid dets tracks :=
  matchRounds_valid _ Matching.valid_start

/-- The loop ends because nothing is left to take: as many rounds as there are
unmatched detections are enough. -/
theorem matchRounds_done {rounds : Nat} (valid : m.Valid dets tracks)
    (enough : m.detToTrack.count none ≤ rounds) :
    (bestPair dets tracks (matchRounds dets tracks rounds m)).pair = none := by
  induction rounds generalizing m with
  | zero =>
      rw [matchRounds, Option.eq_none_iff_forall_ne_some]
      rintro ⟨d, t⟩ found
      have free := (bestPair_candidate found).slot_free valid
      have counted := List.count_pos_iff.mpr (List.mem_of_getElem? free)
      omega
  | succ rounds ih =>
      rw [matchRounds]
      split
      next ended => exact ended
      next d t found =>
        have candidate := bestPair_candidate found
        rcases List.getElem?_eq_some_iff.mp (candidate.slot_free valid) with ⟨inRange, free⟩
        apply ih (valid.take candidate)
        rw [List.count_set inRange, free]
        have taken : (some t == none) = false := rfl
        simp only [beq_self_eq_true, taken, if_true, Bool.false_eq_true, if_false]
        omega

theorem greedyMatch_done (dets : List (TrackerDetection F)) (tracks : List (Track F)) :
    (bestPair dets tracks (greedyMatch dets tracks)).pair = none :=
  matchRounds_done Matching.valid_start (by simp)

end KhadasYolo.Tracker
