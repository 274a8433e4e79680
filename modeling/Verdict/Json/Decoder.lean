import Verdict.Json.Brackets

/-!
# Decoders

A decoder makes a value of some type from JSON, either while the text is being
read or from a value that is already in memory. Both ways accept the same data.
From a text the first fault in the order of the text is reported, from a value
the first in the order of its members.

A decoder of what stands in brackets is given what decodes the inside of them,
to be asked for when a bracket is opened, or none where no bracket may be
opened. A text has a fixed limit of open brackets; a value in memory has no
limit but its own height.
-/

namespace Verdict

/-- The two ways to make a value of a type from JSON. -/
structure Decoder (α : Type) where
  read : Reader α
  decode : Json → Except DecodeFault α

/-- The fault of a value of another type than wanted. -/
def Json.wrongType {α : Type} (value : Json) (wanted : String) : Except DecodeFault α :=
  .error (.wrongType (.ofJson value) wanted)

namespace Decoder

variable {α β σ : Type}

/-- The number of brackets that may be open at once in a text. -/
def textDepth : Nat :=
  127

/-- Decodes a whole text. -/
def ofText (decoder : Nat → Decoder α) (text : String) : Except DecodeFault α := do
  let parsed ← (decoder textDepth).read text.toList
  match ahead parsed.rest with
  | .nothing => return parsed.value
  | .char _ _ _ => TextFault.trailingCharacters.raise

/-- Decodes a value in memory. -/
def ofJson (decoder : Nat → Decoder α) (value : Json) : Except DecodeFault α :=
  (decoder value.height).decode value

/-- A decoder whose value is converted. -/
def map (convert : α → β) (decoder : Decoder α) : Decoder β where
  read := decoder.read.map convert
  decode value := (decoder.decode value).map convert

/-- A decoder whose value is converted by a step that may fail. -/
def tryMap (convert : α → Except DecodeFault β) (decoder : Decoder α) : Decoder β where
  read := decoder.read.tryMap convert
  decode value := decoder.decode value >>= convert

/-- What decodes the inside of one bracket, if a bracket may still be opened. -/
def inside (content : Nat → β) : (depth : Nat) → Option (Unit → β)
  | 0 => none
  | depth + 1 => some fun _ => content depth

/-- Any value. -/
def value (depth : Nat) : Decoder Json where
  read := Reader.value depth
  decode := .ok

/-- A string. -/
def string : Decoder String where
  read := Reader.afterBlanks fun text =>
    match text with
    | '"' :: rest => do
      let parsed ← Quote.read rest
      return parsed.behind
    | text => Reader.unexpected "a string" text
  decode
    | .string text => .ok text
    | other => other.wrongType "a string"

/-- An object of any members. -/
def dictionary (member : Option (Unit → Decoder Json)) : Decoder (Dictionary Json) where
  read := Reader.afterBlanks fun text =>
    match text with
    | '\x7b' :: rest =>
      match member with
      | none => TextFault.tooDeep.raise
      | some member => do
        let put (entries : Dictionary Json) (key : String) :
            Except DecodeFault (Reader (Dictionary Json)) :=
          .ok ((member ()).read.map (entries.insert key))
        let entries ← Reader.members put ∅ rest
        return entries.behind
    | text => Reader.unexpected "a map" text
  decode
    | .object members => .ok (.ofList members)
    | other => other.wrongType "a map"

/-- An array of items of one kind. -/
def list (item : Option (Unit → Decoder α)) : Decoder (List α) where
  read := Reader.afterBlanks fun text =>
    match text with
    | '[' :: rest =>
      match item with
      | none => TextFault.tooDeep.raise
      | some item => do
        let items ← Reader.items (item ()).read rest
        return items.behind
    | text => Reader.unexpected "a sequence" text
  decode
    | .array items =>
      match item with
      | none => TextFault.tooDeep.raise
      | some item => items.mapM (item ()).decode
    | other => other.wrongType "a sequence"

/-- A value of a kind, or null for none. -/
def optional (decoder : Decoder α) : Decoder (Option α) where
  read := Reader.afterBlanks fun text =>
    match text with
    | 'n' :: rest => Reader.literal ['u', 'l', 'l'] none ('n' :: rest)
    | text => decoder.read.map some text
  decode
    | .null => .ok none
    | other => (decoder.decode other).map some

/-- The name of a choice, after it was looked up. -/
def choose (choices : List (String × α)) (name : String) : Except DecodeFault α :=
  match choices.lookup name with
  | some value => .ok value
  | none => .error (.unknownName name (choices.map (·.1)))

/-- A null. -/
def nothing : Decoder Unit where
  read := Reader.afterBlanks fun text =>
    match text with
    | 'n' :: rest => Reader.literal ['u', 'l', 'l'] () ('n' :: rest)
    | text => Reader.unexpected "unit" text
  decode
    | .null => .ok ()
    | other => other.wrongType "unit"

/-- The key of an object, which must be one of several names. -/
def chosenKey (choices : List (String × α)) : Reader α := Reader.afterBlanks fun text =>
  match text with
  | [] => TextFault.raise (.unfinished .object)
  | '"' :: rest => do
    let parsed ← Quote.read.tryMap (choose choices) rest
    return parsed.behind
  | '\x7d' :: _ => TextFault.expectedValue.raise
  | _ => TextFault.keyNotString.raise

/-- One of several names, alone or as the only key of an object over null. -/
def choice (choices : List (String × α)) (depth : Nat) : Decoder α where
  read := Reader.afterBlanks fun text =>
    match text with
    | [] => TextFault.raise (.unfinished .value)
    | '"' :: rest => do
      let parsed ← Quote.read.tryMap (choose choices) rest
      return parsed.behind
    | '\x7b' :: rest =>
      if depth = 0 then TextFault.tooDeep.raise
      else do
        let chosen ← chosenKey choices rest
        let colon ← Reader.colon chosen.rest
        let null ← nothing.read colon.rest
        match ahead null.rest with
        | .nothing => TextFault.raise (.unfinished .object)
        | .char '\x7d' after short =>
          let brace : Parsed α null.rest := ⟨chosen.value, after, short⟩
          return (chosen.followedBy (colon.followedBy (null.followedBy brace))).behind
        | .char _ _ _ => TextFault.expectedValue.raise
    | _ => TextFault.expectedValue.raise
  decode
    | .string name => choose choices name
    | .object [(name, value)] => do
      let chosen ← choose choices name
      nothing.decode value
      return chosen
    | .object _ => .error .severalKeys
    | other => other.wrongType "string or map"

/-- A field of a record: its name, whether it must be present, and how its value
changes what is known of the record. -/
structure Field (σ : Type) where
  name : String
  isRequired : Bool
  decoder : Decoder (σ → σ)

namespace Field

/-- A field that may be absent. -/
def optional (name : String) (decoder : Decoder α) (put : α → σ → σ) : Field σ :=
  ⟨name, false, decoder.map put⟩

/-- A field that must be present. -/
def required (name : String) (decoder : Decoder α) (put : α → σ → σ) : Field σ :=
  ⟨name, true, decoder.map put⟩

/-- The field of a name. -/
def find? (fields : List (Field σ)) (name : String) : Option (Field σ) :=
  fields.find? fun field => field.name == name

end Field

/-- What is known of a record once the fields with the given names were seen. -/
def complete (fields : List (Field σ)) (seen : List String) (known : σ) : Except DecodeFault σ :=
  match fields.find? fun field => field.isRequired && !seen.contains field.name with
  | some field => .error (.missingField field.name)
  | none => .ok known

/-- What is known of a record once an array ended before the given fields. -/
def completeArray (title : String) (fields rest : List (Field σ)) (known : σ) :
    Except DecodeFault σ :=
  match rest.findIdx? (·.isRequired) with
  | some index =>
    .error (.wrongLength (fields.length - rest.length + index)
      (title ++ " with " ++ toString fields.length ++ " elements"))
  | none => .ok known

/-- A member of a record while it is read: a field that was not seen before is
decoded, and a member of any other name is passed over. -/
def readMember (fields : List (Field σ)) (state : List String × σ) (name : String) :
    Except DecodeFault (Reader (List String × σ)) :=
  match Field.find? fields name with
  | none => .ok (Reader.skip.map fun _ => state)
  | some field =>
    if state.1.contains name then .error (.duplicateField name)
    else .ok (field.decoder.read.map fun put => (name :: state.1, put state.2))

/-- The end of the array of a record: nothing may follow its last field. -/
def readEnd (known : σ) : Reader σ := fun text =>
  match ahead text with
  | .nothing => TextFault.raise (.unfinished .list)
  | .char ']' rest short => .ok ⟨known, rest, short⟩
  | .char ',' rest _ =>
    match ahead rest with
    | .char ']' _ _ => TextFault.trailingComma.raise
    | _ => TextFault.trailingCharacters.raise
  | .char _ _ _ => TextFault.trailingCharacters.raise

/-- The fields of a record in an array, in order, up to and including the bracket. -/
def readFields (title : String) (fields : List (Field σ)) (isFirst : Bool) :
    List (Field σ) → σ → Reader σ
  | [], known => readEnd known
  | field :: rest, known => fun text =>
    match ahead text with
    | .nothing => TextFault.raise (.unfinished .list)
    | .char ']' after short => do
      let known ← completeArray title fields (field :: rest) known
      return ⟨known, after, short⟩
    | .char ',' after short =>
      if isFirst then do
        let put ← field.decoder.read text
        let final ← readFields title fields false rest (put.value known) put.rest
        return put.followedBy final
      else
        match ahead after with
        | .nothing => TextFault.raise (.unfinished .value)
        | .char ']' _ _ => TextFault.trailingComma.raise
        | .char _ _ _ => do
          let put ← field.decoder.read after
          let final ← readFields title fields false rest (put.value known) put.rest
          return (put.followedBy final).widen (Nat.le_of_lt short)
    | .char _ _ _ =>
      if isFirst then do
        let put ← field.decoder.read text
        let final ← readFields title fields false rest (put.value known) put.rest
        return put.followedBy final
      else TextFault.expectedCommaOrBracket.raise

/-- The fields of a record in the items of an array, in order. -/
def decodeItems (title : String) (fields : List (Field σ)) (length : Nat) :
    List (Field σ) → List Json → σ → Except DecodeFault σ
  | [], [], known => .ok known
  | [], _ :: _, _ => .error (.wrongLength length "fewer elements in array")
  | rest, [], known => completeArray title fields rest known
  | field :: rest, item :: items, known => do
    let put ← field.decoder.decode item
    decodeItems title fields length rest items (put known)

/-- A member of a record in memory. -/
def decodeMember (fields : List (Field σ)) (known : σ) (member : String × Json) :
    Except DecodeFault σ :=
  match Field.find? fields member.1 with
  | none => .ok known
  | some field => (field.decoder.decode member.2).map (· known)

/-- A record, written as an object of its fields or as an array of their values. -/
def record (title : String) (initial : σ) (fields : Option (Unit → List (Field σ))) :
    Decoder σ where
  read := Reader.afterBlanks fun text =>
    match text, fields with
    | '[' :: _, none => TextFault.tooDeep.raise
    | '\x7b' :: _, none => TextFault.tooDeep.raise
    | '[' :: rest, some fields => do
      let fields := fields ()
      let known ← readFields title fields true fields initial rest
      return known.behind
    | '\x7b' :: rest, some fields => do
      let fields := fields ()
      let state ← Reader.members (readMember fields) ([], initial) rest
      let known ← complete fields state.value.1 state.value.2
      return (state.map fun _ => known).behind
    | text, _ => Reader.unexpected title text
  decode value :=
    match value, fields with
    | .array _, none => TextFault.tooDeep.raise
    | .object _, none => TextFault.tooDeep.raise
    | .array items, some fields =>
      let fields := fields ()
      decodeItems title fields items.length fields items initial
    | .object members, some fields => do
      let fields := fields ()
      let known ← members.foldlM (decodeMember fields) initial
      complete fields (members.map (·.1)) known
    | other, _ => other.wrongType title

end Decoder
end Verdict
