import KhadasYolo.Ipc.Commands
import Mathlib.Data.List.TakeWhile

/-!
# Requests as documents

What `dispatchCommand` finds in a request that is a JSON document, and when this is what
the request says. The search sees the first member, at any depth, whose key ends as `cmd`
does, with its string as it is written up to the first quote.
-/

namespace KhadasYolo.Ipc

open Json Pipeline Substring

/-- The string of the first member that shows a key, up to the first quote in it. -/
def shownString (document : Value) (key : List UInt8) : List UInt8 :=
  match document.members.find? (hits key (Value.isKind .string)) with
  | some (_, .string text) => text.raw.takeWhile (· != quote)
  | _ => []

/-- Some member shows a key with this Boolean. -/
def showsBool (document : Value) (key : List UInt8) (expected : Bool) : Bool :=
  document.members.any (hits key (Value.isKind (.bool expected)))

/-- The Boolean that members with a key show, the true one before the false one. -/
def shownBool (document : Value) (key : List UInt8) : Option Bool :=
  if showsBool document key true then some true
  else if showsBool document key false then some false
  else none

/-! ## What a search finds -/

section Search

variable {key : List UInt8}

theorem delimited_nil : Delimited [] := fun _ => nofun

theorem memberPattern_string (key : List UInt8) :
    [quote] ++ key ++ [quote, colon, quote] = memberPattern key [quote] := by
  simp [memberPattern]

theorem memberPattern_bool (key start : List UInt8) :
    [quote] ++ key ++ [quote, colon] ++ start = memberPattern key start := by
  simp [memberPattern]

/-- What a search in a whole document leaves. -/
theorem following_render {start : List UInt8} {begins : Value → Bool}
    (search : Search key start begins) (document : Value) :
    match document.members.find? (hits key begins) with
    | none => following (memberPattern key start) document.render = none
    | some (_, value) => ∃ more, following (memberPattern key start) document.render =
        some ((value.render ++ more).drop start.length) := by
  have leads := document.leads search [] delimited_nil
  rw [List.append_nil] at leads
  cases hit : document.members.find? (hits key begins) with
  | none =>
      rw [hit] at leads
      exact Eq.trans leads (following_nil (List.cons_ne_nil _ _))
  | some member =>
      rw [hit] at leads
      exact leads

/-- `extractString` on a document. -/
theorem extractString_render (searchable : Searchable key) (document : Value) :
    extractString document.render key = shownString document key := by
  have found := following_render (search_string searchable) document
  rw [extractString, shownString, memberPattern_string]
  cases hit : document.members.find? (hits key (Value.isKind .string)) with
  | none =>
      rw [hit] at found
      rw [following, Option.map_eq_none_iff] at found
      dsimp only
      rw [found]
  | some member =>
      rcases member with ⟨name, value⟩
      rw [hit] at found
      have kind : value.isKind .string = true := by
        have hits := List.find?_some hit
        rw [Json.hits, Bool.and_eq_true] at hits
        exact hits.2
      rcases Value.of_isKind_string kind with ⟨text, rfl⟩
      rcases found with ⟨more, after⟩
      rcases Option.map_eq_some_iff.mp after with ⟨pos, first, rest⟩
      have quoted : (text.quoted ++ more).drop [quote].length = text.raw ++ quote :: more := by
        rw [Text.quoted, List.cons_append, List.cons_append, List.append_assoc]
        rfl
      rcases take_find_singleton quote text.raw more with ⟨count, closes, before⟩
      dsimp only
      rw [first]
      dsimp only
      rw [rest, Value.render, quoted, closes]
      exact before

theorem isSome_find_render {start : List UInt8} {begins : Value → Bool}
    (search : Search key start begins) (document : Value) :
    (find (memberPattern key start) document.render).isSome =
      document.members.any (hits key begins) := by
  have found := following_render search document
  rw [isSome_find_iff, ← List.isSome_find?]
  cases hit : document.members.find? (hits key begins) with
  | none =>
      rw [hit] at found
      rw [found]
      rfl
  | some member =>
      rw [hit] at found
      rcases found with ⟨more, after⟩
      rw [after]
      rfl

/-- `extractBool` on a document. -/
theorem extractBool_render (searchable : Searchable key) (document : Value) :
    extractBool document.render key = shownBool document key := by
  rw [extractBool, memberPattern_bool, memberPattern_bool,
    isSome_find_render (search_true searchable), isSome_find_render (search_false searchable)]
  rfl

theorem searchable_cmd : Searchable (bytesOf "cmd") where
  quote := by decide
  backslash := by decide
  first := ⟨99, _, rfl, by decide, by decide, by decide, by decide⟩

theorem searchable_enabled : Searchable (bytesOf "enabled") where
  quote := by decide
  backslash := by decide
  first := ⟨101, _, rfl, by decide, by decide, by decide, by decide⟩

/-- The command that is found in a document. -/
theorem requestCommand_render (document : Value) :
    requestCommand document.render =
      commandFor (fun name => shownString document (bytesOf "cmd") == bytesOf name)
        (shownBool document (bytesOf "enabled")) := by
  rw [requestCommand, extractString_render searchable_cmd, extractBool_render searchable_enabled]

end Search

/-! ## What a request says -/

/-- The values of the members of an object with a name. -/
def valuesOf (members : Members) (name : String) : List Value :=
  (members.toList.filter fun member => member.1.value == valueOf name).map Prod.snd

/-- The string of the only member `cmd` with a string. -/
def sentText (members : Members) : Option Text :=
  match (valuesOf members "cmd").filter (Value.isKind .string) with
  | [.string text] => some text
  | _ => none

/-- `params.enabled`, when it is a Boolean. -/
def sentEnabled (members : Members) : Option Bool :=
  match valuesOf members "params" with
  | [.object params] =>
      match valuesOf params "enabled" with
      | [.bool enabled] => some enabled
      | _ => none
  | _ => none

/-- What the server does about a command. -/
def answer (around : Surroundings) (flags : YoloControlState) (command : Command) :
    List UInt8 × YoloControlState :=
  let (response, now) := perform around flags command
  (responseText around response, now)

/-- A command with a name, and with the parameter where the request has one. -/
def Names (text : Text) (enabled : Option Bool) (command : Command) : Prop :=
  ∃ given, (∀ value ∈ enabled, given = some value) ∧
    command = commandFor (fun name => text.value == valueOf name) given

/-- The server acts on the command of a request and stores its parameter. -/
def ActsAsSent (members : Members) : Prop :=
  ∀ text ∈ sentText members, ∃ command, Names text (sentEnabled members) command ∧
    ∀ around flags, dispatchCommand around flags (Value.object members).render =
      answer around flags command

/-- What is shown is what is sent. The first member that shows `cmd` names the same
command, if any, and the parameter is the only Boolean that is shown, or true. -/
def ShowsAsSent (members : Members) : Prop :=
  ∀ text ∈ sentText members,
    commandFor (fun name => shownString (.object members) (bytesOf "cmd") == bytesOf name) none =
        commandFor (fun name => text.value == valueOf name) none ∧
      (text.value = valueOf "set_dump_enabled" → ∀ value ∈ sentEnabled members,
        if value then showsBool (.object members) (bytesOf "enabled") true = true
        else showsBool (.object members) (bytesOf "enabled") true = false ∧
          showsBool (.object members) (bytesOf "enabled") false = true)

/-! ## Commands apart -/

section Apart

/-- The command behind two answers, one of them with inference stopped. -/
def behind (stopped running : List UInt8 × YoloControlState) : Command :=
  if stopped.1 = okResponse then
    if stopped.2.shutdownRequested then .shutdown
    else if stopped.2.inferenceEnabled then .resumeYolo
    else if running.2.inferenceEnabled then .setDumpEnabled (some stopped.2.dumpEnabled)
    else .pauseYolo
  else if stopped.1 = errResponse "missing 'enabled' param (expected true/false)" then
    .setDumpEnabled none
  else if stopped.1 = errResponse "blackout timeout" then .blackout
  else if stopped.1 = errResponse "not in blackout" then .resume
  else if stopped.1 = errResponse "unknown command" then .unknown
  else .getStatus

/-- Two commands with the same answers are the same. -/
theorem answer_injective {first second : Command}
    (same : ∀ around flags, answer around flags first = answer around flags second) :
    first = second := by
  have told (command : Command) :
      behind (answer ⟨0, 0, fun _ => id⟩ { inferenceEnabled := false, dumpEnabled := true } command)
        (answer ⟨0, 0, fun _ => id⟩ {} command) = command := by
    match command with
    | .pauseYolo => decide
    | .resumeYolo => decide
    | .getStatus => decide
    | .setDumpEnabled none => decide
    | .setDumpEnabled (some true) => decide
    | .setDumpEnabled (some false) => decide
    | .shutdown => decide
    | .blackout => decide
    | .resume => decide
    | .unknown => decide
  rw [← told first, same, same, told second]

/-- A command with another parameter, where it has one. -/
def withEnabled (enabled : Option Bool) : Command → Command
  | .setDumpEnabled _ => .setDumpEnabled enabled
  | command => command

theorem commandFor_eq (named : String → Bool) (enabled : Option Bool) :
    commandFor named enabled = withEnabled enabled (commandFor named none) := by
  simp only [commandFor, apply_ite (withEnabled enabled)]
  rfl

/-- Only the command with a parameter tells parameters apart. -/
theorem commandFor_eq_iff {named other : String → Bool} {first second : Option Bool} :
    commandFor named first = commandFor other second ↔
      commandFor named none = commandFor other none ∧
        (commandFor other none = .setDumpEnabled none → first = second) := by
  rw [commandFor_eq named first, commandFor_eq other second]
  have plain (named : String → Bool) :
      withEnabled none (commandFor named none) = commandFor named none :=
    (commandFor_eq named none).symm
  have left := plain named
  have right := plain other
  generalize commandFor named none = a at left
  generalize commandFor other none = b at right
  constructor
  · intro same
    have names : withEnabled none a = withEnabled none b := by
      cases a <;> cases b <;> simp_all [withEnabled]
    rw [left, right] at names
    refine ⟨names, ?_⟩
    rintro rfl
    rw [names] at same
    exact (Command.setDumpEnabled.inj same)
  · rintro ⟨rfl, parameters⟩
    cases a with
    | setDumpEnabled given =>
        cases left
        rw [parameters rfl]
    | _ => rfl

theorem named_setDumpEnabled {named : String → Bool}
    (command : commandFor named none = .setDumpEnabled none) :
    named "set_dump_enabled" = true := by
  by_contra other
  rw [commandFor, if_neg other] at command
  repeat
    split at command
    next => cases command
  cases command

theorem commandFor_setDumpEnabled {text : Text} :
    commandFor (fun name => text.value == valueOf name) none = .setDumpEnabled none ↔
      text.value = valueOf "set_dump_enabled" := by
  constructor
  · intro command
    exact eq_of_beq (named_setDumpEnabled command)
  · intro same
    rw [same]
    decide

theorem shownBool_eq_some {document : Value} {key : List UInt8} {value : Bool} :
    shownBool document key = some value ↔
      if value then showsBool document key true = true
      else showsBool document key true = false ∧ showsBool document key false = true := by
  rw [shownBool]
  cases value <;> cases showsBool document key true <;> cases showsBool document key false <;>
    decide

end Apart

/-- What the server does about a document, and when this is what the document says. -/
theorem acts_as_sent_iff (members : Members) :
    (∀ around flags, dispatchCommand around flags (Value.object members).render =
      answer around flags (commandFor
        (fun name => shownString (.object members) (bytesOf "cmd") == bytesOf name)
        (shownBool (.object members) (bytesOf "enabled")))) ∧
      (ActsAsSent members ↔ ShowsAsSent members) := by
  have acts : ∀ around flags, dispatchCommand around flags (Value.object members).render =
      answer around flags (commandFor
        (fun name => shownString (.object members) (bytesOf "cmd") == bytesOf name)
        (shownBool (.object members) (bytesOf "enabled"))) := by
    intro around flags
    rw [← requestCommand_render]
    rfl
  refine ⟨acts, ?_⟩
  apply forall₂_congr
  intro text sent
  simp only [acts]
  constructor
  · rintro ⟨command, ⟨given, parameter, rfl⟩, answers⟩
    rcases commandFor_eq_iff.mp (answer_injective answers) with ⟨names, parameters⟩
    refine ⟨names, fun dump value enabled => ?_⟩
    rw [← shownBool_eq_some, ← parameter value enabled]
    exact parameters (commandFor_setDumpEnabled.mpr dump)
  · rintro ⟨names, parameters⟩
    by_cases dump : text.value = valueOf "set_dump_enabled"
    · refine ⟨_, ⟨shownBool (.object members) (bytesOf "enabled"), ?_, rfl⟩, ?_⟩
      · intro value enabled
        exact shownBool_eq_some.mpr (parameters dump value enabled)
      · intro around flags
        rw [commandFor_eq_iff.mpr ⟨names, fun _ => rfl⟩]
    · refine ⟨_, ⟨sentEnabled members, fun _ => id, rfl⟩, ?_⟩
      intro around flags
      rw [commandFor_eq_iff.mpr ⟨names, fun command => ?_⟩]
      exact absurd (commandFor_setDumpEnabled.mp command) dump

namespace Example

/-- A text without escapes. -/
def plain (text : String) : Text :=
  text.toList.filterMap fun c => if allowed : Allowed c then some (.plain c allowed) else none

/-- `{"params":{"cmd":"shutdown"},"cmd":"get_status"}` -/
def nested : Members :=
  .cons (plain "params") (.object (.cons (plain "cmd") (.string (plain "shutdown")) .nil))
    (.cons (plain "cmd") (.string (plain "get_status")) .nil)

end Example

/-- The command of a nested object comes before the one that is sent. -/
theorem acts_on_nested : ¬ ActsAsSent Example.nested := by
  intro acts
  have sent : Example.plain "get_status" ∈ sentText Example.nested := by decide
  rcases acts _ sent with ⟨command, ⟨given, _, named⟩, answers⟩
  have status : command = .getStatus := by
    rw [named, commandFor_eq]
    have name : commandFor
        (fun name => (Example.plain "get_status").value == valueOf name) none = .getStatus := by
      decide
    rw [name]
    rfl
  have found : requestCommand (Value.object Example.nested).render = .shutdown := by decide
  have same : requestCommand (Value.object Example.nested).render = command :=
    answer_injective answers
  rw [found, status] at same
  cases same

/-! ## Requests that begin with their command -/

section First

variable {key text : Text} {tail : Members}

/-- A name in ASCII is written as it is, when it is written without escapes. -/
theorem raw_eq_bytesOf (plain : text.Plain) {name : String}
    (ascii : (name.toList.all fun c => decide (c.toNat < 128)) = true) :
    text.raw = bytesOf name ↔ text.value = valueOf name := by
  apply raw_eq_iff plain
  intro c member
  exact of_decide_eq_true (List.all_eq_true.mp ascii c member)

theorem raw_beq (plain : text.Plain) {name : String}
    (ascii : (name.toList.all fun c => decide (c.toNat < 128)) = true) :
    (text.raw == bytesOf name) = (text.value == valueOf name) := by
  rw [Bool.eq_iff_iff, beq_iff_eq, beq_iff_eq]
  exact raw_eq_bytesOf plain ascii

theorem commandFor_raw (plain : text.Plain) (enabled : Option Bool) :
    commandFor (fun name => text.raw == bytesOf name) enabled =
      commandFor (fun name => text.value == valueOf name) enabled := by
  -- Every name of a command is in ASCII.
  simp (disch := decide) only [commandFor, raw_beq plain]

/-- A search finds the member that a document begins with. -/
theorem shownString_first (named : key.raw = bytesOf "cmd") (plain : text.Plain) :
    shownString (.object (.cons key (.string text) tail)) (bytesOf "cmd") = text.raw := by
  have shows : key.Shows (bytesOf "cmd") := by
    rw [Text.Shows, named]
  have hit : hits (bytesOf "cmd") (Value.isKind .string) (key, .string text) = true := by
    rw [hits, decide_eq_true shows]
    rfl
  rw [shownString, Value.members, Members.members, List.cons_append, List.find?_cons_of_pos hit]
  dsimp only
  rw [List.takeWhile_eq_self_iff]
  intro byte member
  rw [bne_iff_ne]
  rintro rfl
  exact quote_not_mem_plain plain member

/-- A request that begins with its command is acted on as it is sent, when the command is
written without escapes and its parameter is the Boolean that is shown. -/
theorem shows_as_sent_first (name : key.Plain) (named : key.value = valueOf "cmd")
    (plain : text.Plain)
    (parameter : text.value = valueOf "set_dump_enabled" →
      ∀ value ∈ sentEnabled (.cons key (.string text) tail),
        shownBool (.object (.cons key (.string text) tail)) (bytesOf "enabled") = some value) :
    ShowsAsSent (.cons key (.string text) tail) := by
  have written : key.raw = bytesOf "cmd" := (raw_eq_bytesOf name (by decide)).mpr named
  intro other sent
  have only : other = text := by
    have values : ∃ more, (valuesOf (.cons key (.string text) tail) "cmd").filter
        (Value.isKind .string) = .string text :: more := by
      rw [valuesOf, Members.toList, List.filter_cons_of_pos (by rw [named]; exact beq_self_eq_true _)]
      exact ⟨_, rfl⟩
    rcases values with ⟨more, values⟩
    rw [sentText, values] at sent
    cases more with
    | nil => exact (Option.some.inj sent).symm
    | cons second more => cases sent
  rw [only]
  constructor
  · rw [shownString_first written plain, commandFor_raw plain]
  · intro dump value enabled
    exact shownBool_eq_some.mp (parameter dump value enabled)

end First

end KhadasYolo.Ipc
