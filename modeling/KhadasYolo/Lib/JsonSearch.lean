import KhadasYolo.Lib.Json
import KhadasYolo.Lib.Substring

/-!
# Members found in the text of a document

Programs that search the text of a document for `"key":` and the beginning of a value, and
do not parse it, find the members whose key they take for the searched one: it is written
so, or ends so after an escaped quote. They find them at any depth, and nothing else.
-/

namespace Json

open Substring

/-- The text that is searched for. -/
def memberPattern (key start : List UInt8) : List UInt8 :=
  (quote :: key) ++ quote :: colon :: start

/-- The text of a string shows a key before its closing quote. -/
def Text.Shows (text : Text) (key : List UInt8) : Prop := quote :: key <:+ quote :: text.raw

instance (text : Text) (key : List UInt8) : Decidable (text.Shows key) :=
  inferInstanceAs (Decidable (_ <:+ _))

/-- A key that is searched for. Its first byte is none that stands behind a string. -/
structure Searchable (key : List UInt8) : Prop where
  quote : quote ∉ key
  backslash : backslash ∉ key
  first : ∃ byte more, key = byte :: more ∧ byte ≠ 44 ∧ byte ≠ 58 ∧ byte ≠ 93 ∧ byte ≠ 125

section Strings

variable {key start rest : List UInt8} {text : Text}

/-- Inside of a string no quote follows a key directly. -/
theorem escaped_before {raw before after : List UInt8} (escaped : Escaped raw)
    (inside : quote :: (before ++ quote :: after) <:+ quote :: raw) : backslash ∈ before := by
  have last : ∃ start, quote :: before = start ++ [backslash] := by
    rcases List.suffix_cons_iff.mp inside with whole | ⟨front, later⟩
    · rcases escaped before after (List.cons.inj whole).2.symm with ⟨start, same⟩
      exact ⟨quote :: start, congrArg (quote :: ·) same⟩
    · have split : raw = (front ++ quote :: before) ++ quote :: after := by
        rw [← later, List.append_assoc]
        rfl
      rcases escaped _ after split with ⟨start, same⟩
      rcases List.append_eq_append_iff.mp same with ⟨middle, _, both⟩ | ⟨middle, _, both⟩
      · exact ⟨middle, both⟩
      · cases middle with
        | nil => exact ⟨[], both.symm⟩
        | cons first middle => simp at both
  rcases last with ⟨start, same⟩
  cases start with
  | nil => simp [quote, backslash] at same
  | cons first start =>
      rw [List.cons_append, List.cons.injEq] at same
      rw [same.2]
      exact List.mem_append_right start List.mem_cons_self

/-- A key is not in front of a quote that is inside of a string. -/
theorem not_before_inside (searchable : Searchable key) {more later : List UInt8}
    (inside : quote :: more <:+ quote :: text.raw) (closed : quote ∈ more) :
    ¬ key ++ quote :: later <+: more ++ rest := by
  intro occurs
  rcases List.eq_append_cons_of_mem closed with ⟨before, after, rfl, first⟩
  rw [List.append_assoc, List.cons_append] at occurs
  have same := ((prefix_delimited searchable.quote first).mp occurs).1
  have escape := escaped_before text.escaped_raw inside
  rw [← same] at escape
  exact searchable.backslash escape

/-- An occurrence that begins with a quote of a string ends with the quote that closes it. -/
theorem occurrence_closes (searchable : Searchable key) {more : List UInt8}
    (inside : quote :: more <:+ quote :: text.raw)
    (occurs : memberPattern key start <+: (quote :: more) ++ quote :: rest) :
    more = key ∧ colon :: start <+: rest := by
  have tail : key ++ quote :: colon :: start <+: more ++ quote :: rest :=
    (List.cons_prefix_cons.mp occurs).2
  have outside : quote ∉ more := fun closed => not_before_inside searchable inside closed tail
  have both := (prefix_delimited searchable.quote outside).mp tail
  exact ⟨both.1.symm, both.2⟩

/-- A search passes over a string that does not show the key of a member. -/
theorem quoted_clear (searchable : Searchable key) (apart : ¬ key <+: rest)
    (absent : ¬ (text.Shows key ∧ colon :: start <+: rest)) :
    Clear (memberPattern key start) text.quoted rest := by
  intro later some ending occurs
  rcases List.suffix_concat_iff.mp ending with rfl | ⟨front, rfl, inside⟩
  · exact some rfl
  · cases front with
    | nil =>
        apply apart
        have tail := (List.cons_prefix_cons.mp occurs).2
        exact (List.prefix_append key _).trans tail
    | cons first more =>
        rw [List.append_assoc, List.singleton_append] at occurs
        cases (List.cons_prefix_cons.mp occurs).1
        have closes := occurrence_closes searchable inside occurs
        apply absent
        constructor
        · rw [Text.Shows, ← closes.1]
          exact inside
        · exact closes.2

/-- A search stops at a member whose key shows the searched one. -/
theorem quoted_found (searchable : Searchable key) (shows : text.Shows key)
    (start rest : List UInt8) :
    following (memberPattern key start) (text.quoted ++ colon :: start ++ rest) = some rest := by
  rcases shows with ⟨front, split⟩
  have pieces : text.quoted ++ colon :: start ++ rest =
      front ++ (memberPattern key start ++ rest) := by
    have open_ : text.quoted = (quote :: text.raw) ++ [quote] := rfl
    rw [open_, ← split, memberPattern]
    simp only [List.append_assoc, List.cons_append, List.nil_append]
  rw [pieces]
  apply following_first
  intro later some ending occurs
  cases later with
  | nil => exact some rfl
  | cons first more =>
      rw [memberPattern, List.append_assoc, List.cons_append] at occurs
      cases (List.cons_prefix_cons.mp occurs).1
      have inside : quote :: (more ++ quote :: key) <:+ quote :: text.raw := by
        rw [← split]
        exact List.suffix_append_self_iff.mpr ending
      have tail : key ++ quote :: colon :: start <+:
          (more ++ quote :: key) ++ (quote :: colon :: start ++ rest) := by
        rw [List.append_assoc]
        exact (List.cons_prefix_cons.mp occurs).2
      apply not_before_inside searchable inside _ tail
      exact List.mem_append_right more List.mem_cons_self

end Strings

/-! ## Documents -/

/-- What stands behind a value. -/
def Delimited (rest : List UInt8) : Prop :=
  ∀ byte ∈ rest.head?, byte = 44 ∨ byte = 93 ∨ byte = 125

/-- A member that a search finds. -/
def hits (key : List UInt8) (begins : Value → Bool) (member : Text × Value) : Bool :=
  decide (member.1.Shows key) && begins member.2

/-- A search that comes to a text goes on behind it, or ends in the value of a member. -/
def Leads (key start : List UInt8) (hit : Option (Text × Value)) (text rest : List UInt8) :
    Prop :=
  match hit with
  | none => following (memberPattern key start) text = following (memberPattern key start) rest
  | some (_, value) => ∃ more,
      following (memberPattern key start) text = some ((value.render ++ more).drop start.length)

/-- The beginning of a value tells the values that are searched for. -/
structure Search (key start : List UInt8) (begins : Value → Bool) : Prop where
  searchable : Searchable key
  begins_iff : ∀ value rest, start <+: value.render ++ rest ↔ begins value = true

section Documents

variable {key start text middle rest : List UInt8} {begins : Value → Bool}
  {first second : Option (Text × Value)}

theorem Leads.trans (before : Leads key start first text middle)
    (after : Leads key start second middle rest) : Leads key start (first.or second) text rest := by
  cases first with
  | none =>
      rw [Option.none_or]
      cases second with
      | none => exact before.trans after
      | some hit =>
          rcases after with ⟨more, found⟩
          exact ⟨more, before.trans found⟩
  | some hit => exact before

theorem leads_clear {piece : List UInt8} (clear : Clear (memberPattern key start) piece rest) :
    Leads key start none (piece ++ rest) rest :=
  following_clear clear

/-- A piece without quotes. -/
theorem leads_plain {piece : List UInt8} (absent : quote ∉ piece) :
    Leads key start none (piece ++ rest) rest := by
  apply leads_clear
  exact clear_of_not_mem absent

theorem Searchable.apart (searchable : Searchable key)
    (behind : ∀ byte ∈ rest.head?, byte = 44 ∨ byte = 58 ∨ byte = 93 ∨ byte = 125) :
    ¬ key <+: rest := by
  rcases searchable.first with ⟨first, more, rfl, noComma, noColon, noBracket, noBrace⟩
  intro begins
  cases rest with
  | nil => exact List.cons_ne_nil first more (List.prefix_nil.mp begins)
  | cons byte rest =>
      have same := (List.cons_prefix_cons.mp begins).1
      rcases behind byte rfl with rfl | rfl | rfl | rfl <;> contradiction

/-- A string that is a value. -/
theorem leads_string (search : Search key start begins) (string : Text)
    (delimited : Delimited rest) : Leads key start none (string.quoted ++ rest) rest := by
  apply leads_clear
  apply quoted_clear search.searchable
  · apply search.searchable.apart
    intro byte head
    exact (delimited byte head).imp_right .inr
  · rintro ⟨_, member⟩
    cases rest with
    | nil => exact absurd (List.prefix_nil.mp member) (List.cons_ne_nil _ _)
    | cons byte rest =>
        cases (List.cons_prefix_cons.mp member).1
        exact absurd (delimited colon rfl) (by decide)

/-- The key of a member with its colon. -/
theorem leads_key (search : Search key start begins) (name : Text) (value : Value)
    (rest : List UInt8) :
    Leads key start (if hits key begins (name, value) then some (name, value) else none)
      (name.quoted ++ colon :: (value.render ++ rest)) (value.render ++ rest) := by
  split
  next hit =>
    rw [hits, Bool.and_eq_true, decide_eq_true_eq] at hit
    have start_ := (search.begins_iff value []).mpr hit.2
    rw [List.append_nil] at start_
    rcases start_ with ⟨tail, whole⟩
    refine ⟨rest, ?_⟩
    have pieces : name.quoted ++ colon :: (value.render ++ rest) =
        name.quoted ++ colon :: start ++ (tail ++ rest) := by
      rw [← whole]
      simp only [List.append_assoc, List.cons_append]
    rw [pieces, quoted_found search.searchable hit.1, ← whole, List.append_assoc, List.drop_left]
  next miss =>
    have skipped : Leads key start none (name.quoted ++ colon :: (value.render ++ rest))
        (colon :: (value.render ++ rest)) := by
      apply leads_clear
      apply quoted_clear search.searchable
      · apply search.searchable.apart
        intro byte head
        cases head
        exact .inr (.inl rfl)
      · rintro ⟨shows, member⟩
        have begins_ := (search.begins_iff value rest).mp (List.cons_prefix_cons.mp member).2
        apply miss
        rw [hits, begins_, decide_eq_true shows]
        rfl
    have plain : quote ∉ [colon] := by decide
    exact skipped.trans (leads_plain plain)

theorem delimited_elements (tail : Elements) (delimited : Delimited rest) :
    Delimited (tail.comma ++ (tail.render ++ rest)) := by
  cases tail with
  | nil => exact delimited
  | cons head tail =>
      intro byte first
      cases first
      exact .inl rfl

theorem delimited_members (tail : Members) (delimited : Delimited rest) :
    Delimited (tail.comma ++ (tail.render ++ rest)) := by
  cases tail with
  | nil => exact delimited
  | cons name value tail =>
      intro byte first
      cases first
      exact .inl rfl

theorem quote_not_mem_elements (elements : Elements) : quote ∉ elements.comma := by
  cases elements with
  | nil => exact List.not_mem_nil
  | cons head tail =>
      rw [Elements.comma]
      decide

theorem quote_not_mem_members (members : Members) : quote ∉ members.comma := by
  cases members with
  | nil => exact List.not_mem_nil
  | cons name value tail =>
      rw [Members.comma]
      decide

theorem delimited_cons {byte : UInt8} (closes : byte = 93 ∨ byte = 125) (rest : List UInt8) :
    Delimited (byte :: rest) := by
  intro first head
  cases head
  exact .inr closes

theorem quote_not_mem_number (number : Number) : quote ∉ number.bytes := by
  intro member
  exact absurd (number.numeric quote member) (by decide)

/-- A text between two bytes. -/
theorem leads_enclosed {hit : Option (Text × Value)} {open_ close : UInt8} {body : List UInt8}
    (opens : quote ∉ [open_]) (closes : quote ∉ [close])
    (inside : Leads key start hit (body ++ (close :: rest)) (close :: rest)) :
    Leads key start hit (open_ :: body ++ [close] ++ rest) rest := by
  have begin_ : Leads key start none ([open_] ++ (body ++ (close :: rest)))
      (body ++ (close :: rest)) := leads_plain opens
  have end_ : Leads key start none ([close] ++ rest) rest := leads_plain closes
  have whole := (begin_.trans inside).trans end_
  rw [Option.none_or, Option.or_none] at whole
  rw [List.append_assoc]
  exact whole

mutual

/-- A search in a value finds the first member that it hits, in the order of the text. -/
theorem Value.leads (search : Search key start begins) (value : Value) (rest : List UInt8)
    (delimited : Delimited rest) :
    Leads key start (value.members.find? (hits key begins)) (value.render ++ rest) rest := by
  match value with
  | .null => exact leads_plain (by decide)
  | .bool true => exact leads_plain (by decide)
  | .bool false => exact leads_plain (by decide)
  | .number number => exact leads_plain (quote_not_mem_number number)
  | .string string => exact leads_string search string delimited
  | .array elements =>
      apply leads_enclosed (by decide) (by decide)
      exact elements.leads search _ (delimited_cons (.inl rfl) rest)
  | .object members =>
      apply leads_enclosed (by decide) (by decide)
      exact members.leads search _ (delimited_cons (.inr rfl) rest)

theorem Elements.leads (search : Search key start begins) (elements : Elements)
    (rest : List UInt8) (delimited : Delimited rest) :
    Leads key start (elements.members.find? (hits key begins)) (elements.render ++ rest)
      rest := by
  match elements with
  | .nil => exact rfl
  | .cons head tail =>
      have first := head.leads search _ (delimited_elements tail delimited)
      have comma : Leads key start none (tail.comma ++ (tail.render ++ rest))
          (tail.render ++ rest) := leads_plain (quote_not_mem_elements tail)
      have later := tail.leads search rest delimited
      rw [Elements.members, List.find?_append, Elements.render, List.append_assoc,
        List.append_assoc]
      have whole := (first.trans comma).trans later
      rw [Option.or_none] at whole
      exact whole

theorem Members.leads (search : Search key start begins) (members : Members)
    (rest : List UInt8) (delimited : Delimited rest) :
    Leads key start (members.members.find? (hits key begins)) (members.render ++ rest)
      rest := by
  match members with
  | .nil => exact rfl
  | .cons name value tail =>
      have member := leads_key search name value (tail.comma ++ (tail.render ++ rest))
      have inside := value.leads search _ (delimited_members tail delimited)
      have comma : Leads key start none (tail.comma ++ (tail.render ++ rest))
          (tail.render ++ rest) := leads_plain (quote_not_mem_members tail)
      have later := tail.leads search rest delimited
      have whole := ((member.trans inside).trans comma).trans later
      rw [Members.members, List.cons_append, ← List.singleton_append, List.find?_append,
        List.find?_append, List.find?_singleton, Members.render]
      rw [Option.or_none, Option.or_assoc] at whole
      simp only [List.append_assoc, List.cons_append]
      exact whole

end

end Documents

/-! ## Values by their first byte -/

inductive Kind where
  | null
  | bool (value : Bool)
  | number
  | string
  | array
  | object
  deriving DecidableEq, Repr

def Value.kind : Value → Kind
  | .null => .null
  | .bool value => .bool value
  | .number _ => .number
  | .string _ => .string
  | .array _ => .array
  | .object _ => .object

/-- The kind of the values that begin with a byte. -/
def kindOf (first : UInt8) : Kind :=
  if first = 110 then .null
  else if first = 116 then .bool true
  else if first = 102 then .bool false
  else if first = quote then .string
  else if first = 91 then .array
  else if first = 123 then .object
  else .number

theorem kindOf_numeric {first : UInt8} (numeric : Numeric first) : kindOf first = .number := by
  have apart {byte : UInt8} (other : ¬ Numeric byte) : first ≠ byte := by
    rintro rfl
    exact other numeric
  rw [kindOf, if_neg (apart (by decide)), if_neg (apart (by decide)), if_neg (apart (by decide)),
    if_neg (apart (by decide)), if_neg (apart (by decide)), if_neg (apart (by decide))]

theorem Value.render_kind (value : Value) :
    ∃ first more, value.render = first :: more ∧ kindOf first = value.kind := by
  match value with
  | .null => exact ⟨_, _, rfl, rfl⟩
  | .bool true => exact ⟨_, _, rfl, rfl⟩
  | .bool false => exact ⟨_, _, rfl, rfl⟩
  | .number written =>
      rcases List.exists_cons_of_ne_nil written.bytes_ne_nil with ⟨first, more, bytes⟩
      refine ⟨first, more, bytes, kindOf_numeric (written.numeric first ?_)⟩
      rw [bytes]
      exact List.mem_cons_self
  | .string _ => exact ⟨_, _, rfl, rfl⟩
  | .array _ => exact ⟨_, _, rfl, rfl⟩
  | .object _ => exact ⟨_, _, rfl, rfl⟩

def Value.isKind (kind : Kind) (value : Value) : Bool := value.kind == kind

theorem Value.of_isKind_string {value : Value} (kind : value.isKind .string = true) :
    ∃ text, value = .string text := by
  rw [Value.isKind, beq_iff_eq] at kind
  cases value with
  | string text => exact ⟨text, rfl⟩
  | _ => cases kind

variable {key : List UInt8}

/-- A search for the values of a kind. -/
theorem search_kind (searchable : Searchable key) {first : UInt8} {more : List UInt8}
    (complete : ∀ value : Value, value.kind = kindOf first → first :: more <+: value.render) :
    Search key (first :: more) (Value.isKind (kindOf first)) where
  searchable := searchable
  begins_iff value rest := by
    rw [Value.isKind, beq_iff_eq]
    constructor
    · intro begins
      rcases value.render_kind with ⟨byte, tail, render, kind⟩
      rw [render, List.cons_append] at begins
      rw [(List.cons_prefix_cons.mp begins).1]
      exact kind.symm
    · intro same
      exact (complete value same).trans (List.prefix_append _ rest)

theorem search_string (searchable : Searchable key) :
    Search key [quote] (Value.isKind .string) := by
  apply search_kind searchable
  intro value same
  match value, same with
  | .string text, _ => exact List.prefix_append [quote] _

theorem search_true (searchable : Searchable key) :
    Search key (bytesOf "true") (Value.isKind (.bool true)) := by
  apply search_kind searchable
  intro value same
  match value, same with
  | .bool true, _ => exact List.prefix_rfl

theorem search_false (searchable : Searchable key) :
    Search key (bytesOf "false") (Value.isKind (.bool false)) := by
  apply search_kind searchable
  intro value same
  match value, same with
  | .bool false, _ => exact List.prefix_rfl

end Json
