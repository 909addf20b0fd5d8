import AppReport.Proofs.Containment
import AppReport.Proofs.Decoding
import AppReport.Proofs.LineEnds
import AppReport.Proofs.Nearest

/-!
# The application that a workspace names

The file of the nearest workspace may hold any bytes. They name an application if they are the text
of an object with a name, and else they name none, but for two kinds of bytes that are neither:
bytes that encode no text, and a text that the reader gives up since its containers nest too deep or
one of its integers has too many digits. With these there is a failure
(`Workspace.application_of_nearest`), although the file is only a default for a name that may be
left out.
-/

namespace AppReport.Workspace

open Text

variable {files : Files} {start p : Path}

/-! ### What bytes say -/

/-- Bytes that name an application: the text of an object with a name that is not empty. -/
def Names (bytes : List UInt8) (name : String) : Prop :=
  ∃ cs fields, encode cs = bytes ∧ Json.read (String.ofList cs) = .ok (.object fields) ∧
    Fields.get? fields "application" = some (.text name) ∧ name ≠ ""

/-- The text of bytes, in plain lines. -/
theorem text_encode (cs : List Char) :
    (Content.bytes (encode cs)).text = .ok (String.ofList (plainLines cs)) := by
  have hdecoded : decodeOrFlaw (encode cs) = .ok cs :=
    decodeOrFlaw_eq_ok_iff.mpr (decode?_eq_some_iff.mpr rfl)
  rw [Content.text, Failure.decoded, hdecoded]
  rfl

/-- Bytes that encode no text cannot be read as one. -/
theorem text_of_not_encode {bytes : List UInt8} (h : ∀ cs, encode cs ≠ bytes) :
    ∃ f, (Content.bytes bytes).text = .error f ∧ f.kind? = some .undecodable := by
  rw [Content.text, Failure.decoded]
  cases hdecoded : decodeOrFlaw bytes with
  | ok cs => exact absurd (decode?_eq_some_iff.mp (decodeOrFlaw_eq_ok_iff.mp hdecoded)) (h cs)
  | error flaw => exact ⟨_, rfl, rfl⟩

theorem encode_injective {cs ds : List Char} (h : encode cs = encode ds) : cs = ds := by
  have hcs := decode?_eq_some_iff.mpr h
  rw [decode?_eq_some_iff.mpr rfl] at hcs
  exact (Option.some.inj hcs).symm

/-- The name is found in the text with plain lines as well. -/
theorem names_encode_iff {cs : List Char} {name : String} :
    Names (encode cs) name ↔ ∃ fields,
      Json.read (String.ofList (plainLines cs)) = .ok (.object fields) ∧
      Fields.get? fields "application" = some (.text name) ∧ name ≠ "" := by
  constructor
  · rintro ⟨ds, fields, hds, hread, hname⟩
    rw [encode_injective hds] at hread
    exact ⟨fields, Json.read_plainLines_eq_ok_iff.mpr hread, hname⟩
  · rintro ⟨fields, hread, hname⟩
    exact ⟨cs, fields, rfl, Json.read_plainLines_eq_ok_iff.mp hread, hname⟩

theorem getD_eq_text_iff {fields : Fields} {key s : String} :
    fields.getD key = .text s ↔ fields.get? key = some (.text s) := by
  rw [Fields.getD]
  cases fields.get? key with
  | none => exact ⟨nofun, nofun⟩
  | some v => rw [Option.getD_some, Option.some.injEq]

/-- A document names an application if it is an object with a name that is not empty. -/
theorem applicationOf_eq_some_iff {document : Value} {name : String} :
    applicationOf document = some name ↔ ∃ fields, document = .object fields ∧
      Fields.get? fields "application" = some (.text name) ∧ name ≠ "" := by
  constructor
  · intro h
    unfold applicationOf at h
    split at h
    · rename_i fields
      split at h
      · rename_i s hfield
        split at h
        · cases h
        · rename_i hne
          cases h
          exact ⟨fields, rfl, getD_eq_text_iff.mp hfield, hne⟩
      · cases h
    · cases h
  · rintro ⟨fields, rfl, hfield, hne⟩
    rw [applicationOf, getD_eq_text_iff.mpr hfield]
    exact if_neg hne

/-! ### What the nearest workspace names -/

/-- What the search finds is a file. -/
theorem leadsToFile_of_file? (h : file? files start = .ok (some p)) : LeadsToFile files p := by
  cases hresolve : files.resolve start with
  | error e =>
    rw [file?, hresolve] at h
    cases h
  | ok q =>
    rw [file?_eq_search hresolve, search_eq_iff (by simp)] at h
    obtain ⟨place, -, hlook⟩ := h
    obtain ⟨hfile, rfl⟩ := look_eq_some_iff.mp hlook
    exact hfile

/-- What is found has a content. -/
theorem exists_content_of_file? (h : file? files start = .ok (some p)) :
    ∃ content, files.content p = .ok content := by
  obtain ⟨place, content, hfind⟩ := leadsToFile_of_file? h
  exact ⟨content, by rw [Tree.content, hfind]⟩

/-- What is named where the text of the file can be read. -/
theorem application_of_text {content : Content} {s : String}
    (h : file? files start = .ok (some p)) (hcontent : files.content p = .ok content)
    (htext : content.text = .ok s) : application files start =
      match Json.read s with
      | .ok document => .ok (applicationOf document)
      | .error (.malformed ..) => .ok none
      | .error e => .error (.ofReadError e) := by
  rw [application, h]
  dsimp only
  rw [Tree.readDocument, Tree.readText, hcontent]
  dsimp only
  rw [htext]
  dsimp only
  rcases Json.read s with (_ | _ | _) | document <;> rfl

/-- A file that is no text is a failure. -/
theorem application_of_undecodable {content : Content} {f : Failure}
    (h : file? files start = .ok (some p)) (hcontent : files.content p = .ok content)
    (htext : content.text = .error f) (hkind : f.kind? = some .undecodable) :
    application files start = .error f := by
  rw [application, h]
  dsimp only
  rw [Tree.readDocument, Tree.readText, hcontent]
  dsimp only
  rw [htext]
  dsimp only
  rw [Failure.isKind, Failure.isKind, hkind]
  rfl

section

variable {cs : List Char} (h : file? files start = .ok (some p))
  (hcontent : files.content p = .ok (.bytes (encode cs)))

include h hcontent

/-- The name is found exactly where the bytes name one. -/
theorem application_eq_some_iff {name : String} :
    application files start = .ok (some name) ↔ Names (encode cs) name := by
  rw [application_of_text h hcontent (text_encode cs), names_encode_iff]
  rcases Json.read (String.ofList (plainLines cs)) with e | document
  · constructor
    · cases e <;> exact nofun
    · exact nofun
  · simp only [Except.ok.injEq, applicationOf_eq_some_iff]

/-- A text that is not given up names an application or none. -/
theorem exists_application_eq_ok (hnot : ¬ Json.IsExcessive (String.ofList cs)) :
    ∃ named, application files start = .ok named := by
  rw [← Json.isExcessive_plainLines_iff] at hnot
  rw [application_of_text h hcontent (text_encode cs)]
  cases hread : Json.read (String.ofList (plainLines cs)) with
  | ok document => exact ⟨_, rfl⟩
  | error e =>
    cases e with
    | malformed problem place line column => exact ⟨none, rfl⟩
    | tooManyDigits n => exact absurd (Or.inr ⟨n, hread⟩) hnot
    | tooDeep => exact absurd (Or.inl hread) hnot

/-- A document that the reader gives up is a failure. -/
theorem application_of_isExcessive (hexcessive : Json.IsExcessive (String.ofList cs)) :
    ∃ f, application files start = .error f ∧
      (f.kind? = some .recursion ∨ f.kind? = some .value) := by
  rw [application_of_text h hcontent (text_encode cs)]
  rcases Json.isExcessive_plainLines_iff.mpr hexcessive with hread | ⟨n, hread⟩
  · rw [hread]
    exact ⟨_, rfl, Or.inl rfl⟩
  · rw [hread]
    exact ⟨_, rfl, Or.inr rfl⟩

end

/-- The nearest file can be read, and what it names is what its bytes name. They name an application
if they are the text of an object with one, whatever the ends of its lines; no application is named
if they are another text that is not given up; and there is a failure exactly if they are no text or
one that is given up. -/
theorem application_of_nearest (files : Files) (start p : Path)
    (h : file? files start = .ok (some p)) :
    ∃ content, files.content p = .ok content ∧ ∀ bytes, content = .bytes bytes →
      (∀ name, application files start = .ok (some name) ↔ Names bytes name) ∧
      (application files start = .ok none ↔
        (∃ cs, encode cs = bytes ∧ ¬ Json.IsExcessive (String.ofList cs)) ∧
          ∀ name, ¬ Names bytes name) ∧
      ((∀ cs, encode cs ≠ bytes) →
        ∃ f, application files start = .error f ∧ f.kind? = some .undecodable) ∧
      (∀ cs, encode cs = bytes → Json.IsExcessive (String.ofList cs) →
        ∃ f, application files start = .error f ∧
          (f.kind? = some .recursion ∨ f.kind? = some .value)) := by
  obtain ⟨content, hcontent⟩ := exists_content_of_file? h
  refine ⟨content, hcontent, ?_⟩
  rintro bytes rfl
  by_cases htext : ∃ cs, encode cs = bytes
  · obtain ⟨cs, rfl⟩ := htext
    refine ⟨fun name => application_eq_some_iff h hcontent, ⟨fun hnone => ?_, ?_⟩, ?_, ?_⟩
    · refine ⟨⟨cs, rfl, fun hexcessive => ?_⟩, fun name hnames => ?_⟩
      · obtain ⟨f, hf, -⟩ := application_of_isExcessive h hcontent hexcessive
        cases hnone.symm.trans hf
      · cases hnone.symm.trans ((application_eq_some_iff h hcontent).mpr hnames)
    · rintro ⟨⟨ds, hds, hnot⟩, hnames⟩
      rw [encode_injective hds] at hnot
      obtain ⟨named, hnamed⟩ := exists_application_eq_ok h hcontent hnot
      cases named with
      | none => exact hnamed
      | some name => exact absurd ((application_eq_some_iff h hcontent).mp hnamed) (hnames name)
    · exact fun hnone => absurd rfl (hnone cs)
    · intro ds hds hexcessive
      rw [encode_injective hds] at hexcessive
      exact application_of_isExcessive h hcontent hexcessive
  · -- the bytes are no text, and so they name no application
    have hnone : ∀ cs, encode cs ≠ bytes := not_exists.mp htext
    obtain ⟨f, hf, hkind⟩ := text_of_not_encode hnone
    have hfails := application_of_undecodable h hcontent hf hkind
    refine ⟨fun name => ⟨fun hsome => ?_, fun ⟨cs, fields, hcs, _⟩ => absurd hcs (hnone cs)⟩,
      ⟨fun hok => ?_, fun ⟨⟨cs, hcs, _⟩, _⟩ => absurd hcs (hnone cs)⟩, fun _ => ⟨f, hfails, hkind⟩,
      fun cs hcs => absurd hcs (hnone cs)⟩
    · cases hfails.symm.trans hsome
    · cases hfails.symm.trans hok

/-- A directory with the file of a workspace that holds some bytes. -/
def workspaceWith (bytes : List UInt8) : Files where
  entries := [(["work"], .directory), (["work", ".appatlas"], .directory),
    (["work", ".appatlas", "workspace.json"], .file (.bytes bytes))]
  current := ["work"]

theorem file?_workspaceWith (bytes : List UInt8) :
    file? (workspaceWith bytes) ⟨.here, []⟩ = .ok (some (fileAt ["work"])) := by
  have hdirectory : (workspaceWith bytes).find ⟨.top, ["work"]⟩ = .ok (["work"], .directory) := rfl
  have hresolve : (workspaceWith bytes).resolve ⟨.here, []⟩ = .ok ⟨.top, ["work"]⟩ :=
    resolve_here (hdirectory ▸ nofun)
  have hfile : LeadsToFile (workspaceWith bytes) (fileAt ["work"]) := ⟨_, _, rfl⟩
  rw [file?_eq_search hresolve, search_eq_iff (by simp)]
  exact ⟨["work"], isReached_self _ _, look_of_leadsToFile hfile⟩

theorem content_workspaceWith (bytes : List UInt8) :
    (workspaceWith bytes).content (fileAt ["work"]) = .ok (.bytes bytes) := rfl

/-- An object with a name, in lines with two characters at their ends. -/
def wordedName : List Char := "\x7b\r\n\"application\": \"my-app\"\r\n\x7d".toList

theorem application_of_nearest_wordedName :
    file? (workspaceWith (encode wordedName)) ⟨.here, []⟩ = .ok (some (fileAt ["work"])) ∧
    application (workspaceWith (encode wordedName)) ⟨.here, []⟩ = .ok (some "my-app") := by
  have hfile := file?_workspaceWith (encode wordedName)
  have hnames : Names (encode wordedName) "my-app" :=
    ⟨wordedName, [("application", .text "my-app")], rfl, rfl, rfl, by decide⟩
  obtain ⟨content, hcontent, hnamed⟩ := application_of_nearest _ _ _ hfile
  cases hcontent.symm.trans (content_workspaceWith _)
  obtain ⟨happlication, -⟩ := hnamed _ rfl
  exact ⟨hfile, (happlication "my-app").mpr hnames⟩

/-- A byte that begins no character, a thousand opening brackets, and an integer of five thousand
digits: the file is found, and the name cannot be read. -/
theorem application_unreadable :
    (∃ f, application (workspaceWith [0xff]) ⟨.here, []⟩ = .error f ∧
      f.kind? = some .undecodable) ∧
    (∃ f, application (workspaceWith (encode (List.replicate 1000 '['))) ⟨.here, []⟩ = .error f) ∧
    ∃ f, application (workspaceWith (encode (List.replicate 5000 '1'))) ⟨.here, []⟩ = .error f := by
  refine ⟨?_, ?_, ?_⟩
  · have hnone : ∀ cs, encode cs ≠ [0xff] := by
      intro cs hcs
      have hdecoded : decode? [0xff] = some cs := decode?_eq_some_iff.mpr hcs
      cases hdecoded
    obtain ⟨f, hf, hkind⟩ := text_of_not_encode hnone
    exact ⟨f, application_of_undecodable (file?_workspaceWith _) (content_workspaceWith _) hf hkind,
      hkind⟩
  · have hbrackets := Json.read_brackets (n := 1000) (by decide) []
    rw [List.append_nil] at hbrackets
    obtain ⟨f, hf, -⟩ := application_of_isExcessive (file?_workspaceWith _)
      (content_workspaceWith _) (Or.inl hbrackets)
    exact ⟨f, hf⟩
  · have hones := Json.read_ones (n := 5000) (by decide)
    obtain ⟨f, hf, -⟩ := application_of_isExcessive (file?_workspaceWith _)
      (content_workspaceWith _) (Or.inr ⟨_, hones⟩)
    exact ⟨f, hf⟩

end AppReport.Workspace
