import Mathlib.Data.List.Basic

/-!
# Folding keyed records into a map

Records carry a key. A map holds one running value for each key seen so far:
a record updates the value of its own key, starting from a default value when
the key is new. Folding a list of records therefore acts on every key through
the sublist of its own records, and two lists give the same map exactly when
they agree key by key.
-/

namespace KeyedFold

open Std (ExtTreeMap TransCmp LawfulEqCmp)

universe u v w

section Records

variable {Key : Type u} {Record : Type w} [DecidableEq Key] (key : Record → Key)

/-- The records of one key, in their order of arrival. -/
def recordsOf (wanted : Key) (records : List Record) : List Record :=
  records.filter fun record => key record = wanted

variable {key} {wanted : Key} {first second records : List Record}
  {record : Record}

@[simp] theorem recordsOf_nil : recordsOf key wanted [] = [] := rfl

@[simp] theorem recordsOf_append : recordsOf key wanted (first ++ second) =
    recordsOf key wanted first ++ recordsOf key wanted second :=
  List.filter_append _ _

theorem recordsOf_cons : recordsOf key wanted (record :: records) =
    if key record = wanted then record :: recordsOf key wanted records
    else recordsOf key wanted records := by
  simp [recordsOf, List.filter_cons]

end Records

section Map

variable {Key : Type u} {Value : Type v} {Record : Type w}
  {cmp : Key → Key → Ordering} [TransCmp cmp]

variable (key : Record → Key) (initial : Value) (update : Value → Record → Value)

/-- One record enters the map: its key's value, inserted with the default when
absent, is updated in place. -/
def absorb (map : ExtTreeMap Key Value cmp) (record : Record) :
    ExtTreeMap Key Value cmp :=
  map.insert (key record) (update (map.getD (key record) initial) record)

variable (cmp) in
/-- The map that a list of records builds up from nothing. -/
def collect (records : List Record) : ExtTreeMap Key Value cmp :=
  records.foldl (absorb key initial update) ∅

variable {key initial update}

variable [LawfulEqCmp cmp] [DecidableEq Key]

theorem getElem?_absorb (map : ExtTreeMap Key Value cmp) (record : Record)
    (wanted : Key) :
    (absorb key initial update map record)[wanted]? =
      if key record = wanted then
        some (update (map[wanted]?.getD initial) record)
      else map[wanted]? := by
  rw [absorb, ExtTreeMap.getElem?_insert, ExtTreeMap.getD_eq_getD_getElem?]
  by_cases same : key record = wanted
  · subst same
    simp
  · simp [same]

/-- A fold acts on each key through the records of that key alone. -/
theorem getElem?_foldl_absorb (records : List Record)
    (map : ExtTreeMap Key Value cmp) (wanted : Key) :
    (records.foldl (absorb key initial update) map)[wanted]? =
      if recordsOf key wanted records = [] then map[wanted]?
      else some ((recordsOf key wanted records).foldl update
        (map[wanted]?.getD initial)) := by
  induction records generalizing map with
  | nil => simp
  | cons record records ih =>
      rw [List.foldl_cons, ih, getElem?_absorb, recordsOf_cons]
      by_cases same : key record = wanted
      · by_cases rest : recordsOf key wanted records = []
        · simp [same, rest]
        · simp [same, rest]
      · simp [same]

theorem getElem?_collect (records : List Record) (wanted : Key) :
    (collect cmp key initial update records)[wanted]? =
      if recordsOf key wanted records = [] then none
      else some ((recordsOf key wanted records).foldl update initial) := by
  rw [collect, getElem?_foldl_absorb, ExtTreeMap.getElem?_empty]
  rfl

/-- Leaving out the first part of a list goes unnoticed exactly when every key
of that part occurs again and its first records do not show in its value. -/
theorem collect_eq_collect_append_iff (first second : List Record) :
    collect cmp key initial update second =
        collect cmp key initial update (first ++ second) ↔
      ∀ wanted, recordsOf key wanted first ≠ [] →
        recordsOf key wanted second ≠ [] ∧
          (recordsOf key wanted second).foldl update initial =
            (recordsOf key wanted first ++ recordsOf key wanted second).foldl
              update initial := by
  constructor
  · intro same wanted seen
    have entry := congrArg (fun map => map[wanted]?) same
    simp only [getElem?_collect, recordsOf_append, List.append_eq_nil_iff, seen,
      false_and, if_false] at entry
    split at entry
    next => contradiction
    next again => exact ⟨again, Option.some.inj entry⟩
  · intro each
    apply ExtTreeMap.ext_getElem?
    intro wanted
    simp only [getElem?_collect, recordsOf_append, List.append_eq_nil_iff]
    by_cases unseen : recordsOf key wanted first = []
    · simp [unseen]
    · rcases each wanted unseen with ⟨again, same⟩
      simp [unseen, again, same]

end Map

end KeyedFold
