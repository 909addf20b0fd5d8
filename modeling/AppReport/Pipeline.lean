import AppReport.Record

/-!
# Pipeline records

A pipeline record of the directory has known fields, which are checked, and any number of further
fields, which are kept as they are. `Pipeline.document` is the record as it goes into a JSON
document: the known fields under their external names in a fixed order, then the further fields.
-/

namespace AppReport

open Text

/-- A deployment pipeline as the directory describes it. -/
structure Pipeline where
  name : String
  region : String
  accountId : String
  stages : List Fields
  createdAt : Option String
  updatedAt : Option String
  /-- The fields that the directory adds to the known ones. -/
  extras : Fields

namespace Pipeline

/-- The name of the record in messages. -/
def model : String := "Pipeline"

/-- The name, `pipelineName` outside. -/
def nameField : FieldName := ⟨"name", "pipelineName"⟩

/-- The region. -/
def regionField : FieldName := .plain "region"

/-- The account, `accountId` outside. -/
def accountField : FieldName := ⟨"account_id", "accountId"⟩

/-- The stages. -/
def stagesField : FieldName := .plain "stages"

/-- The time of creation, `createdAt` outside. -/
def createdField : FieldName := ⟨"created_at", "createdAt"⟩

/-- The time of the last change, `updatedAt` outside. -/
def updatedField : FieldName := ⟨"updated_at", "updatedAt"⟩

/-- The known fields in order. -/
def knownFields : List FieldName :=
  [nameField, regionField, accountField, stagesField, createdField, updatedField]

/-- Checks a pipeline record. -/
def check (v : Value) : Checked Pipeline :=
  match v with
  | .object fields =>
    let name := nameField.check fields none Checked.text
    let region := regionField.check fields (some "") Checked.text
    let account := accountField.check fields (some "") Checked.text
    let stages := stagesField.check fields (some []) (Checked.list Checked.object)
    let created := createdField.check fields (some none) Checked.text?
    let updated := updatedField.check fields (some none) Checked.text?
    match name.both (region.both (account.both (stages.both (created.both updated)))) with
    | .ok (name, region, accountId, stages, createdAt, updatedAt) =>
      .ok ⟨name, region, accountId, stages, createdAt, updatedAt, Fields.unknown fields knownFields⟩
    | .error issues => .error issues
  | _ => .fail (.notRecord model)

/-- The pipeline record that a value is. -/
def ofValue (v : Value) : Except Failure Pipeline :=
  match check v with
  | .ok p => .ok p
  | .error issues => .error (.invalid model issues)

end Pipeline

/-! ### Untyped data in a document -/

/-- The greatest number of containers around a part of an untyped value that a document takes. -/
def deepestInDocument : Nat := 254

/-- The failure to put a value into a document because its containers nest too deep. -/
def Failure.documentTooDeep : Failure := .of .value "Maximum serialization depth exceeded"

/-- The failure to put bytes into a document because they are no text from a byte on. -/
def Failure.bytesNotText (bytes : List UInt8) (place : Nat) : Failure :=
  .of .undecodable ("'utf-8' codec can't decode byte 0x"
    ++ String.ofList (hexDigits 2 (bytes.getD place 0).toNat) ++ " in position " ++ toString place
    ++ ": invalid utf-8")

mutual

/-- An untyped value as a document holds it, with `room` for that many containers: a number that
is not finite becomes `null`, and bytes become the text that they encode. -/
def Value.documented (room : Nat) : Value → Except Failure Value
  | .float x => .ok (if x.isFinite then .float x else .null)
  | .bytes b =>
    match decodeOrFlaw b with
    | .ok cs => .ok (.text (String.ofList cs))
    | .error flaw => .error (.bytesNotText b flaw.first)
  | .list items =>
    if room = 0 then .error .documentTooDeep
    else
      match Value.documentedItems (room - 1) items with
      | .ok items => .ok (.list items)
      | .error e => .error e
  | .object fields =>
    if room = 0 then .error .documentTooDeep
    else
      match Value.documentedFields (room - 1) fields with
      | .ok fields => .ok (.object fields)
      | .error e => .error e
  | v => .ok v

/-- The items of a list as a document holds them. -/
def Value.documentedItems (room : Nat) : List Value → Except Failure (List Value)
  | [] => .ok []
  | v :: rest =>
    match v.documented room with
    | .error e => .error e
    | .ok v =>
      match Value.documentedItems room rest with
      | .error e => .error e
      | .ok vs => .ok (v :: vs)

/-- The fields of an object as a document holds them. -/
def Value.documentedFields (room : Nat) :
    List (String × Value) → Except Failure (List (String × Value))
  | [] => .ok []
  | (k, v) :: rest =>
    match v.documented room with
    | .error e => .error e
    | .ok v =>
      match Value.documentedFields room rest with
      | .error e => .error e
      | .ok fields => .ok ((k, v) :: fields)

end

/-- A text, or `null`. -/
def Value.ofText? : Option String → Value
  | some s => .text s
  | none => .null

/-- A stage of a pipeline as a document holds it. -/
def Pipeline.documentedStage (stage : Fields) : Except Failure Value :=
  match Value.documentedFields deepestInDocument stage with
  | .error e => .error e
  | .ok fields => .ok (.object fields)

/-- The record as a document holds it. -/
def Pipeline.document (p : Pipeline) : Except Failure Value :=
  match mapUntilFailure documentedStage p.stages with
  | .error e => .error e
  | .ok stages =>
    match Value.documentedFields deepestInDocument p.extras with
    | .error e => .error e
    | .ok extras => .ok (.object ([
        (nameField.external, .text p.name),
        (regionField.external, .text p.region),
        (accountField.external, .text p.accountId),
        (stagesField.external, .list stages),
        (createdField.external, .ofText? p.createdAt),
        (updatedField.external, .ofText? p.updatedAt)] ++ extras))

end AppReport
