import KhadasYolo.Tracker.Matching

/-!
# Track identities

A frame acts on every id by itself: the id of an output is alive and unseen for
no frame afterwards, any other id ages and dies when it gets too old. An output
carries the id of a track of its class, or an id that has never been issued.
This holds as long as the id counter does not wrap around.
-/

namespace KhadasYolo.Tracker

universe u

variable {F : Type u}

/-- The live track with an id. -/
def heldIn (tracks : List (Track F)) (id : UInt32) : Option (Track F) :=
  tracks.find? (·.id == id)

def IouTracker.held (self : IouTracker F) (id : UInt32) : Option (Track F) :=
  heldIn self.tracks id

/-- The ids of some tracks, in their order. -/
def idsOf (tracks : List (Track F)) : List UInt32 := tracks.map Track.id

/-- The ids are distinct, and all of them have been issued. -/
structure Issued (ids : List UInt32) (nextId : UInt32) : Prop where
  distinct : ids.Nodup
  positive : ∀ id ∈ ids, 0 < id.toNat
  below : ∀ id ∈ ids, id.toNat < nextId.toNat

/-- The track of an output. -/
def Track.seen (frameId : UInt64) (o : TrackerOutput F) : Track F :=
  { id := o.trackId, det := o.det, framesUnseen := 0, lastSeenFrame := frameId }

def Track.unseen (tr : Track F) : Track F :=
  { tr with framesUnseen := tr.framesUnseen + 1 }

/-- One more frame without a match, the last one of a track that gets too old. -/
def Track.age (tr : Track F) : Option (Track F) :=
  if tr.unseen.framesUnseen ≤ kMaxAge then some tr.unseen else none

/-- A track gets older in a frame that has no output with its id. -/
def Track.after (seen : List UInt32) (tr : Track F) : Track F :=
  if tr.id ∈ seen then tr else tr.unseen

theorem Track.after_id (seen : List UInt32) (tr : Track F) : (tr.after seen).id = tr.id := by
  rw [after]
  split <;> rfl

/-! ## Tracks by id -/

section Held

variable {tracks : List (Track F)} {id : UInt32} {tr new : Track F}

theorem mem_of_heldIn (held : heldIn tracks id = some tr) : tr ∈ tracks ∧ tr.id = id :=
  ⟨List.mem_of_find?_eq_some held, by simpa using List.find?_some held⟩

theorem heldIn_of_mem (distinct : (idsOf tracks).Nodup) (member : tr ∈ tracks) :
    heldIn tracks tr.id = some tr := by
  induction tracks with
  | nil => contradiction
  | cons first rest ih =>
      rw [idsOf, List.map_cons, List.nodup_cons] at distinct
      rcases List.mem_cons.mp member with rfl | later
      · simp [heldIn]
      · have other : first.id ≠ tr.id := by
          intro same
          exact distinct.1 (same ▸ List.mem_map_of_mem later)
        rw [heldIn, List.find?_cons_of_neg (by simpa using other)]
        exact ih distinct.2 later

theorem heldIn_eq_none_iff : heldIn tracks id = none ↔ id ∉ idsOf tracks := by
  simp [heldIn, idsOf]

/-- A track takes the place of the one with its id. -/
theorem heldIn_set {t : Nat} (distinct : (idsOf tracks).Nodup)
    (held : tracks[t]? = some tr) (same : new.id = tr.id) (id : UInt32) :
    heldIn (tracks.set t new) id = if new.id = id then some new else heldIn tracks id := by
  induction tracks generalizing t with
  | nil => simp at held
  | cons first rest ih =>
      rw [idsOf, List.map_cons, List.nodup_cons] at distinct
      cases t with
      | zero =>
          cases held
          by_cases this : new.id = id
          · simp [heldIn, this]
          · simp [heldIn, this, ← same]
      | succ t =>
          rw [List.getElem?_cons_succ] at held
          have other : first.id ≠ new.id := by
            rw [same]
            intro equal
            exact distinct.1 (equal ▸ List.mem_map_of_mem (List.mem_of_getElem? held))
          rw [List.set_cons_succ]
          by_cases front : first.id = id
          · rw [if_neg (fun this => other (front.trans this.symm))]
            simp [heldIn, front]
          · have rest := ih distinct.2 held
            simp only [heldIn] at rest ⊢
            rw [List.find?_cons_of_neg (by simpa using front), rest,
              List.find?_cons_of_neg (by simpa using front)]

/-- A new track comes behind the others. -/
theorem heldIn_append (fresh : new.id ∉ idsOf tracks) (id : UInt32) :
    heldIn (tracks ++ [new]) id = if new.id = id then some new else heldIn tracks id := by
  rw [heldIn, List.find?_append, ← heldIn]
  split
  next this =>
    subst this
    rw [heldIn_eq_none_iff.mpr fresh]
    simp
  next other => simp [other]

/-- Changing tracks by id and dropping some of them acts on every id by itself. -/
theorem heldIn_filter_map (distinct : (idsOf tracks).Nodup) {change : Track F → Track F}
    (same : ∀ tr, (change tr).id = tr.id) (keep : Track F → Bool) (id : UInt32) :
    heldIn ((tracks.map change).filter keep) id =
      (heldIn tracks id).bind fun tr =>
        if keep (change tr) then some (change tr) else none := by
  induction tracks with
  | nil => rfl
  | cons first rest ih =>
      rw [idsOf, List.map_cons, List.nodup_cons] at distinct
      have later := ih distinct.2
      by_cases this : first.id = id
      · have absent : heldIn rest id = none := heldIn_eq_none_iff.mpr (this ▸ distinct.1)
        rw [absent, Option.bind_none] at later
        have front : heldIn (first :: rest) id = some first := by simp [heldIn, this]
        rw [front, Option.bind_some, List.map_cons, List.filter_cons]
        split
        next => simp [heldIn, same, this]
        next => exact later
      · have behind : heldIn (first :: rest) id = heldIn rest id := by
          rw [heldIn, List.find?_cons_of_neg (by simpa using this)]
          rfl
        rw [behind, ← later, List.map_cons, List.filter_cons]
        split
        next =>
          rw [heldIn, List.find?_cons_of_neg (by simpa [same] using this)]
          rfl
        next => rfl

end Held

/-! ## Placing the detections -/

/-- What going through some detections does. -/
structure Placed (frameId : UInt64) (u : Updating F)
    (entries : List (TrackerDetection F × Option Nat)) (news : List (TrackerOutput F))
    (after : Updating F) : Prop where
  outputs : after.outputs = u.outputs ++ news
  distinct : (news.map TrackerOutput.trackId).Nodup
  issued : Issued (idsOf after.tracks) after.nextId
  nextId : after.nextId.toNat = u.nextId.toNat + (entries.map Prod.snd).count none
  ids : idsOf u.tracks <+: idsOf after.tracks
  held : ∀ id, heldIn after.tracks id =
    ((news.find? (·.trackId == id)).map (Track.seen frameId)).or (heldIn u.tracks id)
  known : ∀ o ∈ news,
    (∃ t : Nat, (o.det, some t) ∈ entries ∧ (idsOf u.tracks)[t]? = some o.trackId) ∨
      u.nextId.toNat ≤ o.trackId.toNat
  reached : ∀ (t : Nat) id, some t ∈ entries.map Prod.snd →
    (idsOf u.tracks)[t]? = some id → id ∈ news.map TrackerOutput.trackId

/-- The entries lead to tracks that exist, each to one of its own, and there are
enough ids for the others. -/
structure Placeable (u : Updating F) (entries : List (TrackerDetection F × Option Nat)) :
    Prop where
  issued : Issued (idsOf u.tracks) u.nextId
  inRange : ∀ t : Nat, some t ∈ entries.map Prod.snd → t < u.tracks.length
  distinct : (entries.map Prod.snd).Pairwise fun a b => a = b → a = none
  positive : 0 < u.nextId.toNat
  room : u.nextId.toNat + (entries.map Prod.snd).count none < 2 ^ 32

/-- A matched detection is placed on its track. -/
theorem placeDetection_known (frameId : UInt64) {u : Updating F} {t : Nat}
    (issued : Issued (idsOf u.tracks) u.nextId) (inRange : t < u.tracks.length)
    (det : TrackerDetection F) :
    Placed frameId u [(det, some t)] [⟨det, u.tracks[t].id⟩]
      (placeDetection frameId u (det, some t)) := by
  have held : u.tracks[t]? = some u.tracks[t] := List.getElem?_eq_getElem inRange
  have placed : placeDetection frameId u (det, some t) =
      { tracks := u.tracks.set t (Track.seen frameId ⟨det, u.tracks[t].id⟩)
        nextId := u.nextId
        outputs := u.outputs ++ [⟨det, u.tracks[t].id⟩] } := by
    simp only [placeDetection, held]
    rfl
  have sameIds : idsOf (u.tracks.set t (Track.seen frameId ⟨det, u.tracks[t].id⟩)) =
      idsOf u.tracks := by
    rw [idsOf, List.map_set, Track.seen, ← List.getElem_map Track.id]
    · exact List.set_getElem_self _
    · rwa [List.length_map]
  rw [placed]
  constructor
  · rfl
  · exact List.nodup_singleton _
  · rw [sameIds]
    exact issued
  · simp
  · rw [sameIds]
  · intro id
    have same : (Track.seen frameId ⟨det, u.tracks[t].id⟩).id = u.tracks[t].id := rfl
    dsimp only
    rw [heldIn_set issued.distinct held same]
    by_cases this : u.tracks[t].id = id
    · simp [Track.seen, this]
    · simp [Track.seen, this]
  · intro o member
    rcases List.mem_singleton.mp member with rfl
    refine .inl ⟨t, List.mem_singleton_self _, ?_⟩
    rw [idsOf, List.getElem?_map, held]
    rfl
  · intro s id slot found
    simp only [List.map_cons, List.map_nil, List.mem_singleton, Option.some.injEq] at slot ⊢
    subst slot
    rw [idsOf, List.getElem?_map, held] at found
    exact (Option.some.inj found).symm

/-- Any other detection is placed on a new track. -/
theorem placeDetection_new (frameId : UInt64) {u : Updating F}
    (issued : Issued (idsOf u.tracks) u.nextId) (positive : 0 < u.nextId.toNat)
    (room : u.nextId.toNat + 1 < 2 ^ 32) (det : TrackerDetection F) :
    Placed frameId u [(det, none)] [⟨det, u.nextId⟩]
      (placeDetection frameId u (det, none)) := by
  have next : (u.nextId + 1).toNat = u.nextId.toNat + 1 := by
    rw [UInt32.toNat_add]
    exact Nat.mod_eq_of_lt room
  have fresh : u.nextId ∉ idsOf u.tracks := fun member =>
    Nat.lt_irrefl _ (issued.below _ member)
  have ids : idsOf (u.tracks ++ [Track.seen frameId ⟨det, u.nextId⟩]) =
      idsOf u.tracks ++ [u.nextId] := by
    simp [idsOf, Track.seen]
  have placed : placeDetection frameId u (det, none) =
      { tracks := u.tracks ++ [Track.seen frameId ⟨det, u.nextId⟩]
        nextId := u.nextId + 1
        outputs := u.outputs ++ [⟨det, u.nextId⟩] } := rfl
  rw [placed]
  constructor
  · rfl
  · exact List.nodup_singleton _
  · rw [ids]
    constructor
    · rw [List.nodup_append]
      refine ⟨issued.distinct, List.nodup_singleton _, ?_⟩
      intro id member other last same
      rcases List.mem_singleton.mp last with rfl
      exact fresh (same ▸ member)
    · intro id member
      rcases List.mem_append.mp member with member | member
      · exact issued.positive id member
      · rwa [List.mem_singleton.mp member]
    · intro id member
      rw [next]
      rcases List.mem_append.mp member with member | member
      · exact Nat.lt_succ_of_lt (issued.below id member)
      · rw [List.mem_singleton.mp member]
        exact Nat.lt_succ_self _
  · simp [next]
  · rw [ids]
    exact List.prefix_append _ _
  · intro id
    have absent : (Track.seen frameId ⟨det, u.nextId⟩).id ∉ idsOf u.tracks := fresh
    dsimp only
    rw [heldIn_append absent]
    by_cases this : u.nextId = id
    · simp [Track.seen, this]
    · simp [Track.seen, this]
  · intro o member
    rcases List.mem_singleton.mp member with rfl
    exact .inr (Nat.le_refl _)
  · intro t id slot
    simp at slot

/-- Later tracks do not move the earlier ones. -/
theorem getElem?_of_initial {first second : List UInt32} (initial : first <+: second)
    {t : Nat} (inRange : t < first.length) : second[t]? = first[t]? := by
  rcases initial with ⟨more, rfl⟩
  exact List.getElem?_append_left inRange

section Cons

variable {frameId : UInt64} {u middle after : Updating F}
  {entry : TrackerDetection F × Option Nat}
  {rest : List (TrackerDetection F × Option Nat)} {o : TrackerOutput F}
  {news : List (TrackerOutput F)}

theorem Placeable.later (placeable : Placeable u (entry :: rest))
    (first : Placed frameId u [entry] [o] middle) : Placeable middle rest where
  issued := first.issued
  inRange t slot := by
    have inRange := placeable.inRange t (List.mem_cons_of_mem _ slot)
    have longer := first.ids.length_le
    rw [idsOf, idsOf, List.length_map, List.length_map] at longer
    omega
  distinct := (List.pairwise_cons.mp placeable.distinct).2
  positive := by
    have next := first.nextId
    have positive := placeable.positive
    omega
  room := by
    have next := first.nextId
    have room := placeable.room
    rw [List.map_cons, List.count_cons] at room
    rw [List.map_cons, List.map_nil, List.count_cons, List.count_nil] at next
    omega

/-- A matched track is where it was before the first detection. -/
theorem Placeable.same_place (placeable : Placeable u (entry :: rest))
    (first : Placed frameId u [entry] [o] middle) {t : Nat}
    (slot : some t ∈ rest.map Prod.snd) :
    (idsOf middle.tracks)[t]? = (idsOf u.tracks)[t]? := by
  apply getElem?_of_initial first.ids
  rw [idsOf, List.length_map]
  exact placeable.inRange t (List.mem_cons_of_mem _ slot)

/-- No two outputs of a frame have the same id. -/
theorem Placed.fresh (placeable : Placeable u (entry :: rest))
    (first : Placed frameId u [entry] [o] middle)
    (later : Placed frameId middle rest news after) :
    o.trackId ∉ news.map TrackerOutput.trackId := by
  intro member
  rcases List.mem_map.mp member with ⟨other, among, same⟩
  rcases later.known other among with ⟨t, matched, found⟩ | new
  · have slot : some t ∈ rest.map Prod.snd := List.mem_map_of_mem matched
    rw [placeable.same_place first slot, same] at found
    rcases first.known o (List.mem_singleton_self o) with ⟨s, placed, held⟩ | new
    · have inRange := (List.getElem?_eq_some_iff.mp found).1
      have equal : t = s :=
        (List.getElem?_inj inRange placeable.issued.distinct).mp (found.trans held.symm)
      subst equal
      have apart := (List.pairwise_cons.mp placeable.distinct).1 _ slot
      rw [← List.mem_singleton.mp placed] at apart
      exact absurd (apart rfl) nofun
    · have below := placeable.issued.below _ (List.mem_of_getElem? found)
      omega
  · have held := first.held o.trackId
    rw [List.find?_cons_of_pos (by simp), Option.map_some, Option.some_or] at held
    have below := first.issued.below _ (List.mem_map_of_mem (mem_of_heldIn held).1)
    rw [same] at new
    exact absurd below (Nat.not_lt.mpr new)

theorem Placed.cons (placeable : Placeable u (entry :: rest))
    (first : Placed frameId u [entry] [o] middle)
    (later : Placed frameId middle rest news after) :
    Placed frameId u (entry :: rest) (o :: news) after := by
  have fresh := first.fresh placeable later
  constructor
  · rw [later.outputs, first.outputs, List.append_assoc, List.singleton_append]
  · rw [List.map_cons]
    exact List.nodup_cons.mpr ⟨fresh, later.distinct⟩
  · exact later.issued
  · have next := first.nextId
    rw [List.map_cons, List.map_nil, List.count_cons, List.count_nil] at next
    rw [List.map_cons, List.count_cons, later.nextId]
    omega
  · exact first.ids.trans later.ids
  · intro id
    rw [later.held, first.held]
    by_cases this : o.trackId = id
    · have absent : news.find? (·.trackId == id) = none := by
        rw [List.find?_eq_none]
        intro other among same
        exact fresh (this ▸ List.mem_map.mpr ⟨other, among, by simpa using same⟩)
      simp [absent, this]
    · simp [this]
  · intro other member
    rcases List.mem_cons.mp member with rfl | among
    · rcases first.known other (List.mem_singleton_self other) with ⟨t, placed, held⟩ | new
      · exact .inl ⟨t, List.mem_cons.mpr (.inl (List.mem_singleton.mp placed)), held⟩
      · exact .inr new
    · rcases later.known other among with ⟨t, placed, held⟩ | new
      · rw [placeable.same_place first (List.mem_map_of_mem placed)] at held
        exact .inl ⟨t, List.mem_cons_of_mem _ placed, held⟩
      · have next := first.nextId
        exact .inr (by omega)
  · intro t id slot found
    rw [List.map_cons, List.mem_cons] at slot ⊢
    rcases slot with here | slot
    · have reached := first.reached t id (List.mem_singleton.mpr here) found
      exact .inl (List.mem_singleton.mp reached)
    · rw [← placeable.same_place first slot] at found
      exact .inr (later.reached t id slot found)

/-- The first of several detections is placed. -/
theorem placeDetection_placed (frameId : UInt64) (placeable : Placeable u (entry :: rest)) :
    ∃ o, Placed frameId u [entry] [o] (placeDetection frameId u entry) := by
  rcases entry with ⟨det, slot⟩
  cases slot with
  | some t =>
      exact ⟨_, placeDetection_known frameId placeable.issued
        (placeable.inRange t List.mem_cons_self) det⟩
  | none =>
      have room := placeable.room
      rw [List.map_cons, List.count_cons_self] at room
      exact ⟨_, placeDetection_new frameId placeable.issued placeable.positive
        (by omega) det⟩

end Cons

theorem placeAll_placed (frameId : UInt64) {u : Updating F}
    {entries : List (TrackerDetection F × Option Nat)} (placeable : Placeable u entries) :
    ∃ news, Placed frameId u entries news (entries.foldl (placeDetection frameId) u) := by
  induction entries generalizing u with
  | nil =>
      refine ⟨[], (List.append_nil _).symm, List.nodup_nil, placeable.issued, rfl,
        List.prefix_rfl, fun id => ?_, nofun, nofun⟩
      simp
  | cons entry rest ih =>
      rcases placeDetection_placed frameId placeable with ⟨o, first⟩
      rcases ih (placeable.later first) with ⟨news, later⟩
      exact ⟨o :: news, first.cons placeable later⟩

/-! ## One frame -/

/-- The ids are in order, and id 0 stays reserved. -/
structure IouTracker.Valid (tracker : IouTracker F) : Prop where
  issued : Issued (idsOf tracker.tracks) tracker.nextId
  positive : 0 < tracker.nextId.toNat

theorem IouTracker.valid_fresh : (IouTracker.fresh : IouTracker F).Valid where
  issued := ⟨List.nodup_nil, nofun, nofun⟩
  positive := Nat.one_pos

section Update

variable [FloatMath F]

/-- How many tracks a frame starts. -/
def IouTracker.spawned (self : IouTracker F) (dets : List (TrackerDetection F)) : Nat :=
  (greedyMatch dets self.tracks).detToTrack.count none

theorem length_detToTrack (dets : List (TrackerDetection F)) (tracks : List (Track F)) :
    (greedyMatch dets tracks).detToTrack.length = dets.length :=
  (greedyMatch_valid dets tracks).detsLength

/-- Matched detections lead to tracks that exist. -/
theorem matched_inRange {dets : List (TrackerDetection F)} {tracks : List (Track F)} {t : Nat}
    (matched : some t ∈ (greedyMatch dets tracks).detToTrack) : t < tracks.length := by
  rcases List.getElem?_of_mem matched with ⟨d, found⟩
  rcases (greedyMatch_valid dets tracks).alike found with ⟨_, _, _, held, _⟩
  exact (List.getElem?_eq_some_iff.mp held).1

omit [FloatMath F] in
theorem placeAll_dets (frameId : UInt64) {u : Updating F}
    {entries : List (TrackerDetection F × Option Nat)}
    (inRange : ∀ t : Nat, some t ∈ entries.map Prod.snd → t < u.tracks.length) :
    (entries.foldl (placeDetection frameId) u).outputs.map TrackerOutput.det =
      u.outputs.map TrackerOutput.det ++ entries.map Prod.fst := by
  induction entries generalizing u with
  | nil => simp
  | cons entry rest ih =>
      have step : (placeDetection frameId u entry).outputs.map TrackerOutput.det =
            u.outputs.map TrackerOutput.det ++ [entry.1] ∧
          u.tracks.length ≤ (placeDetection frameId u entry).tracks.length := by
        rcases entry with ⟨det, slot⟩
        cases slot with
        | none => simp [placeDetection]
        | some t =>
            have held := List.getElem?_eq_getElem (inRange t List.mem_cons_self)
            simp [placeDetection, held]
      rw [List.foldl_cons, ih, step.1, List.append_assoc]
      · rfl
      · intro t slot
        exact Nat.lt_of_lt_of_le (inRange t (List.mem_cons_of_mem _ slot)) step.2

/-- Every detection gets an output, in the order of the detections. -/
theorem update_dets (self : IouTracker F) (frameId : UInt64)
    (dets : List (TrackerDetection F)) :
    (self.update frameId dets).1.map TrackerOutput.det = dets := by
  have lengths := length_detToTrack dets self.tracks
  rw [IouTracker.update, placeAll_dets]
  · rw [List.map_nil, List.nil_append, List.map_fst_zip (Nat.le_of_eq lengths.symm)]
  · intro t slot
    rw [List.map_snd_zip (Nat.le_of_eq lengths)] at slot
    exact matched_inRange slot

/-- What `update` does to the ids. -/
structure Updated (tracker : IouTracker F) (frameId : UInt64)
    (dets : List (TrackerDetection F)) (outputs : List (TrackerOutput F))
    (after : IouTracker F) : Prop where
  distinct : (outputs.map TrackerOutput.trackId).Nodup
  valid : after.Valid
  nextId : after.nextId.toNat = tracker.nextId.toNat + tracker.spawned dets
  held : ∀ id, after.held id =
    match outputs.find? (·.trackId == id) with
    | some o => some (Track.seen frameId o)
    | none => (tracker.held id).bind Track.age
  known : ∀ o ∈ outputs,
    (∃ tr, tracker.held o.trackId = some tr ∧ sameClass o.det tr.det = true) ∨
      tracker.nextId.toNat ≤ o.trackId.toNat

/-- The detections of a frame can be placed. -/
theorem IouTracker.Valid.placeable {self : IouTracker F} (valid : self.Valid)
    {dets : List (TrackerDetection F)}
    (room : self.nextId.toNat + self.spawned dets < 2 ^ 32) :
    Placeable { tracks := self.tracks, nextId := self.nextId, outputs := [] }
      (dets.zip (greedyMatch dets self.tracks).detToTrack) := by
  have slots := List.map_snd_zip (Nat.le_of_eq (length_detToTrack dets self.tracks))
  have matching := greedyMatch_valid dets self.tracks
  constructor
  · exact valid.issued
  · intro t slot
    rw [slots] at slot
    exact matched_inRange slot
  · rw [slots, List.pairwise_iff_getElem]
    intro i j inFirst inSecond apart same
    cases slot : (greedyMatch dets self.tracks).detToTrack[i] with
    | none => rfl
    | some t =>
        have first := List.getElem?_eq_some_iff.mpr ⟨inFirst, slot⟩
        have second := List.getElem?_eq_some_iff.mpr ⟨inSecond, same.symm.trans slot⟩
        have equal := matching.injective first second
        omega
  · exact valid.positive
  · rw [slots]
    exact room

section Ageing

variable {self : IouTracker F} {frameId : UInt64} {dets : List (TrackerDetection F)}
  {outputs : List (TrackerOutput F)} {u : Updating F} (valid : self.Valid)
  (placed : Placed frameId { tracks := self.tracks, nextId := self.nextId, outputs := [] }
    (dets.zip (greedyMatch dets self.tracks).detToTrack) outputs u)

include valid placed

/-- A track that was there before is in use exactly when it has an output. -/
theorem used_iff_seen {t : Nat} {id : UInt32} (before : (idsOf self.tracks)[t]? = some id) :
    (greedyMatch dets self.tracks).trackUsed.getD t true = true ↔
      id ∈ outputs.map TrackerOutput.trackId := by
  have matching := greedyMatch_valid dets self.tracks
  have slots := List.map_snd_zip (Nat.le_of_eq (length_detToTrack dets self.tracks))
  have inRange := (List.getElem?_eq_some_iff.mp before).1
  have old : t < (greedyMatch dets self.tracks).trackUsed.length := by
    rwa [matching.tracksLength, ← List.length_map Track.id]
  rw [List.getD_eq_getElem _ _ old, ← Option.some_inj, ← List.getElem?_eq_getElem old,
    matching.used]
  constructor
  · rintro ⟨d, matched⟩
    apply placed.reached t _ _ before
    rw [slots]
    exact List.mem_of_getElem? matched
  · intro member
    rcases List.mem_map.mp member with ⟨o, among, same⟩
    rcases placed.known o among with ⟨s, matched, place⟩ | new
    · have equal : t = s := by
        rw [same, ← before] at place
        exact (List.getElem?_inj inRange valid.issued.distinct).mp place.symm
      have slot := List.mem_map_of_mem (f := Prod.snd) matched
      rw [slots, ← equal] at slot
      exact List.getElem?_of_mem slot
    · have below := valid.issued.below _ (List.mem_of_getElem? before)
      rw [same] at new
      exact absurd below (Nat.not_lt.mpr new)

omit valid in
/-- A track that was not there before has come with an output. -/
theorem seen_of_new {t : Nat} {tr : Track F} (found : u.tracks[t]? = some tr)
    (new : self.tracks.length ≤ t) : tr.id ∈ outputs.map TrackerOutput.trackId := by
  by_contra absent
  have held := heldIn_of_mem placed.issued.distinct (List.mem_of_getElem? found)
  rw [placed.held, List.find?_eq_none.mpr, Option.map_none, Option.none_or] at held
  · -- Otherwise it would have been there, and in two places now.
    rcases List.getElem?_of_mem (mem_of_heldIn held).1 with ⟨s, place⟩
    have inRange : s < self.tracks.length := (List.getElem?_eq_some_iff.mp place).1
    have now : (idsOf u.tracks)[t]? = some tr.id := by
      rw [idsOf, List.getElem?_map, found]
      rfl
    have kept := getElem?_of_initial placed.ids
      (show s < (idsOf self.tracks).length by rwa [idsOf, List.length_map])
    have first : (idsOf self.tracks)[s]? = some tr.id := by
      rw [idsOf, List.getElem?_map, place]
      rfl
    rw [first, ← now] at kept
    have inAfter := (List.getElem?_eq_some_iff.mp (kept.trans now)).1
    have equal := (List.getElem?_inj inAfter placed.issued.distinct).mp kept
    omega
  · intro o among same
    exact absent (List.mem_map.mpr ⟨o, among, by simpa using same⟩)

/-- Ageing goes by the outputs: a track without one gets older. -/
theorem ageTracks_eq :
    ageTracks (greedyMatch dets self.tracks).trackUsed u.tracks =
      u.tracks.map (Track.after (outputs.map TrackerOutput.trackId)) := by
  have used : ∀ (t : Nat) tr, u.tracks[t]? = some tr →
      ((greedyMatch dets self.tracks).trackUsed.getD t true = true ↔
        tr.id ∈ outputs.map TrackerOutput.trackId) := by
    intro t tr found
    by_cases old : t < self.tracks.length
    · apply used_iff_seen valid placed
      have inIds : t < (idsOf self.tracks).length := by rwa [idsOf, List.length_map]
      rw [← getElem?_of_initial placed.ids inIds, idsOf, List.getElem?_map, found]
      rfl
    · have beyond : (greedyMatch dets self.tracks).trackUsed.length ≤ t := by
        rw [(greedyMatch_valid dets self.tracks).tracksLength]
        exact Nat.le_of_not_lt old
      rw [List.getD_eq_default _ _ beyond]
      exact iff_of_true rfl (seen_of_new placed found (Nat.le_of_not_lt old))
  apply List.ext_getElem?
  intro t
  rw [ageTracks, List.getElem?_mapIdx, List.getElem?_map]
  cases found : u.tracks[t]? with
  | none => rfl
  | some tr =>
      have uses := used t tr found
      simp only [Option.map_some, uses]
      rfl

end Ageing

section Aged

variable {frameId : UInt64} {before tracks : List (Track F)}
  {outputs : List (TrackerOutput F)} (distinct : (idsOf tracks).Nodup)
  (held : ∀ id, heldIn tracks id =
    ((outputs.find? (·.trackId == id)).map (Track.seen frameId)).or (heldIn before id))

omit [FloatMath F] in
/-- Ageing only drops tracks. -/
theorem idsOf_aged (seen : List UInt32) (tracks : List (Track F)) :
    (idsOf ((tracks.map (Track.after seen)).filter (·.framesUnseen ≤ kMaxAge))).Sublist
      (idsOf tracks) := by
  have kept := (List.filter_sublist (l := tracks.map (Track.after seen))
    (p := (·.framesUnseen ≤ kMaxAge))).map Track.id
  have same : Track.id ∘ Track.after (F := F) seen = Track.id := funext (Track.after_id seen)
  rwa [List.map_map, same] at kept

omit [FloatMath F] in
include distinct held in
/-- What ageing leaves of an id. -/
theorem heldIn_aged (id : UInt32) :
    heldIn ((tracks.map (Track.after (outputs.map TrackerOutput.trackId))).filter
        (·.framesUnseen ≤ kMaxAge)) id =
      match outputs.find? (·.trackId == id) with
      | some o => some (Track.seen frameId o)
      | none => (heldIn before id).bind Track.age := by
  rw [heldIn_filter_map distinct (Track.after_id _), held]
  cases found : outputs.find? (·.trackId == id) with
  | some o =>
      have member : o.trackId ∈ outputs.map TrackerOutput.trackId :=
        List.mem_map_of_mem (List.mem_of_find?_eq_some found)
      have kept : (Track.seen frameId o).after (outputs.map TrackerOutput.trackId) =
          Track.seen frameId o := if_pos member
      simp only [Option.map_some, Option.some_or, Option.bind_some, kept]
      exact if_pos rfl
  | none =>
      have absent : id ∉ outputs.map TrackerOutput.trackId := by simpa using found
      simp only [Option.map_none, Option.none_or]
      cases alive : heldIn before id with
      | none => rfl
      | some tr =>
          have older : tr.after (outputs.map TrackerOutput.trackId) = tr.unseen := by
            rw [Track.after, (mem_of_heldIn alive).2]
            exact if_neg absent
          simp only [Option.bind_some, older, Track.age, decide_eq_true_eq]

end Aged

/-- `update` acts on every id by itself. -/
theorem update_updated {self : IouTracker F} (valid : self.Valid) (frameId : UInt64)
    {dets : List (TrackerDetection F)}
    (room : self.nextId.toNat + self.spawned dets < 2 ^ 32) :
    Updated self frameId dets (self.update frameId dets).1 (self.update frameId dets).2 := by
  have slots := List.map_snd_zip (Nat.le_of_eq (length_detToTrack dets self.tracks))
  rcases placeAll_placed frameId (valid.placeable room) with ⟨outputs, placed⟩
  have outputsEq := placed.outputs
  rw [List.nil_append] at outputsEq
  have next := placed.nextId
  rw [slots] at next
  have aged := ageTracks_eq valid placed
  rw [IouTracker.update]
  dsimp only
  rw [aged, outputsEq]
  generalize (dets.zip (greedyMatch dets self.tracks).detToTrack).foldl
    (placeDetection frameId) { tracks := self.tracks, nextId := self.nextId, outputs := [] } =
    u at placed next
  have ids := idsOf_aged (outputs.map TrackerOutput.trackId) u.tracks
  constructor
  · exact placed.distinct
  · refine ⟨⟨placed.issued.distinct.sublist ids, ?_, ?_⟩, ?_⟩
    · exact fun id member => placed.issued.positive id (ids.subset member)
    · exact fun id member => placed.issued.below id (ids.subset member)
    · exact Nat.lt_of_lt_of_le valid.positive (by rw [next]; exact Nat.le_add_right _ _)
  · exact next
  · exact heldIn_aged placed.issued.distinct placed.held
  · intro o member
    rcases placed.known o member with ⟨t, matched, place⟩ | new
    · rcases List.getElem?_of_mem matched with ⟨d, entry⟩
      rcases List.getElem?_zip_eq_some.mp entry with ⟨inDets, inSlots⟩
      rcases (greedyMatch_valid dets self.tracks).alike inSlots with
        ⟨det, tr, found, held, alike⟩
      rw [inDets] at found
      cases found
      rw [idsOf, List.getElem?_map, held] at place
      refine .inl ⟨tr, ?_, alike⟩
      rw [← Option.some.inj place]
      exact heldIn_of_mem valid.issued.distinct (List.mem_of_getElem? held)
    · exact .inr new

end Update

end KhadasYolo.Tracker
