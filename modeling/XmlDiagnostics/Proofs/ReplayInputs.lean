import XmlDiagnostics.Replay

/-!
# The inputs of a replay

A replay reads settings, a document and events, and each of them may fail.  `Ends` lists how a
replay can end, as rules on what is stored in its files: with the first step that fails, or with
the pass over what was read.  `ends_iff` says that these rules are the replay.

A rule only speaks of the files that it needs.  So a replay depends on no others: `Consults` says
which files count, given what is stored in those that were looked at before, and files that agree
there are replayed alike (`Ends.congr`).
-/

namespace XmlDiagnostics

namespace StoredFile

/-- Why there is no text. -/
inductive Fails : StoredFile → Failure → Prop
  /-- There is no file. -/
  | missing : Fails .missing (.io "No such file or directory (os error 2)")
  /-- The file cannot be read. -/
  | unreadable (reason : String) : Fails (.unreadable reason) (.io reason)

/-- What comes of a file in which `read?` looks for a value.  A text without one fails as
`malformed`. -/
inductive Gives {α : Type} (read? : String → Option α) (malformed : Failure) :
    StoredFile → Except Failure α → Prop
  /-- There is no text. -/
  | failed {file : StoredFile} {failure : Failure} : file.Fails failure →
      Gives read? malformed file (.error failure)
  /-- The text has no value. -/
  | malformed {content : String} : read? content = none →
      Gives read? malformed (.text content) (.error malformed)
  /-- The text has a value. -/
  | value {content : String} {value : α} : read? content = some value →
      Gives read? malformed (.text content) (.ok value)

variable {file : StoredFile}

theorem isPresent_iff : file.isPresent = true ↔ file ≠ .missing := by
  cases file <;> simp [isPresent]

theorem read_cases (file : StoredFile) :
    (∃ failure, file.Fails failure ∧ file.read = .error failure) ∨
      ∃ content, file = .text content ∧ file.read = .ok content := by
  cases file with
  | missing => exact Or.inl ⟨_, .missing, rfl⟩
  | unreadable reason => exact Or.inl ⟨_, .unreadable reason, rfl⟩
  | text content => exact Or.inr ⟨content, rfl, rfl⟩

theorem Fails.read_eq {failure : Failure} (h : file.Fails failure) :
    file.read = .error failure := by
  cases h <;> rfl

/-- What a file gives is the failure to read it, or what its text is read as. -/
theorem gives_iff {α : Type} {read? : String → Option α} {malformed : Failure}
    {result : Except Failure α} :
    file.Gives read? malformed result ↔
      file.read.bind (fun content ↦ (read? content).elim (.error malformed) .ok) = result := by
  constructor
  · intro h
    cases h with
    | failed hfails =>
      rw [hfails.read_eq]
      rfl
    | malformed hnone => simp [read, Except.bind, hnone]
    | value hsome => simp [read, Except.bind, hsome]
  · rintro rfl
    obtain ⟨failure, hfails, hread⟩ | ⟨content, rfl, hread⟩ := file.read_cases
    · rw [hread]
      exact .failed hfails
    · cases hvalue : read? content with
      | none => simpa [hread, Except.bind, hvalue] using Gives.malformed hvalue
      | some value => simpa [hread, Except.bind, hvalue] using Gives.value hvalue

/-- Bytes are stored as the text whose UTF-8 they are. -/
theorem ofBytes_toUTF8 (content : String) : ofBytes content.toUTF8 = .text content := by
  have hvalid : String.fromUTF8? content.toUTF8 = some content := dif_pos content.isValidUTF8
  rw [ofBytes, hvalid]

/-- Bytes that are the UTF-8 of no text cannot be read. -/
theorem ofBytes_of_forall_ne {bytes : ByteArray} (h : ∀ content : String, content.toUTF8 ≠ bytes) :
    ofBytes bytes = .unreadable "stream did not contain valid UTF-8" := by
  have hinvalid : String.fromUTF8? bytes = none := dif_neg fun hvalid ↦ h ⟨bytes, hvalid⟩ rfl
  rw [ofBytes, hinvalid]

end StoredFile

namespace Replay

/-! ## How a replay ends -/

/-- What the search for settings comes to. -/
inductive Settles (files : Files) : Option String → Except Failure Settings → Prop
  /-- The user names a file, and there is none. -/
  | absent {path : String} : files.namedSettings = .missing →
      Settles files (some path) (.error (.settings ("Missing configuration file: " ++ path)))
  /-- The user names a file, and it is the one that counts. -/
  | named {path : String} {result : Except Failure Settings} : files.namedSettings ≠ .missing →
      files.namedSettings.Gives Settings.ofText?
        (.settings "Failed to parse TOML configuration") result →
      Settles files (some path) result
  /-- The user names no file.  The one of the working directory counts if it is there, whatever
  is in it. -/
  | working {result : Except Failure Settings} : files.localSettings ≠ .missing →
      files.localSettings.Gives Settings.ofText?
        (.settings "Failed to parse TOML configuration") result →
      Settles files none result
  /-- Otherwise it is the one of the system. -/
  | system {result : Except Failure Settings} : files.localSettings = .missing →
      files.systemSettings ≠ .missing →
      files.systemSettings.Gives Settings.ofText?
        (.settings "Failed to parse TOML configuration") result →
      Settles files none result
  /-- Without any file the defaults count. -/
  | defaults : files.localSettings = .missing → files.systemSettings = .missing →
      Settles files none (.ok {})

/-- How a replay ends. -/
inductive Ends (files : Files) (options : Options) : Except Failure Replay → Prop
  /-- There are no settings. -/
  | atSettings {failure : Failure} : Settles files options.settingsPath (.error failure) →
      Ends files options (.error failure)
  /-- There are settings, but no document. -/
  | atDocument {settings : Settings} {failure : Failure} :
      Settles files options.settingsPath (.ok settings) → files.document.Fails failure →
      Ends files options (.error failure)
  /-- There are settings and a document, but no events. -/
  | atEvents {settings : Settings} {text : String} {failure : Failure} :
      Settles files options.settingsPath (.ok settings) → files.document = .text text →
      files.events.Gives Event.listOfText? (.events "the file is not a list of events")
        (.error failure) →
      Ends files options (.error failure)
  /-- All is there, and the pass over the events is made.  The family is the one that the user
  chooses, and otherwise that of the settings. -/
  | finished {settings : Settings} {text : String} {events : List Event} :
      Settles files options.settingsPath (.ok settings) → files.document = .text text →
      files.events.Gives Event.listOfText? (.events "the file is not a list of events")
        (.ok events) →
      Ends files options (.ok ⟨.ofString text,
        Pass.run { settings with family := options.family.getD settings.family } (.ofString text)
          events⟩)

variable {files files' : Files} {options : Options}

theorem gives_settings_iff {file : StoredFile} {result : Except Failure Settings} :
    file.Gives Settings.ofText? (.settings "Failed to parse TOML configuration") result ↔
      settingsIn file = result := by
  have hsettingsIn : settingsIn file = file.read.bind fun content ↦
      (Settings.ofText? content).elim (.error (.settings "Failed to parse TOML configuration"))
        .ok := by
    refine congrArg file.read.bind (funext fun content ↦ ?_)
    cases Settings.ofText? content <;> rfl
  rw [StoredFile.gives_iff, hsettingsIn]

theorem gives_events_iff {file : StoredFile} {result : Except Failure (List Event)} :
    file.Gives Event.listOfText? (.events "the file is not a list of events") result ↔
      eventsIn file = result := by
  have heventsIn : eventsIn file = file.read.bind fun content ↦
      (Event.listOfText? content).elim (.error (.events "the file is not a list of events"))
        .ok := by
    refine congrArg file.read.bind (funext fun content ↦ ?_)
    cases Event.listOfText? content <;> rfl
  rw [StoredFile.gives_iff, heventsIn]

/-- The rules of the search for settings are the search. -/
theorem settles_iff {path : Option String} {result : Except Failure Settings} :
    Settles files path result ↔ findSettings files path = result := by
  constructor
  · intro h
    cases h with
    | absent hmissing => rw [findSettings, hmissing]; rfl
    | named hpresent hgives =>
      exact (if_pos (StoredFile.isPresent_iff.mpr hpresent)).trans (gives_settings_iff.mp hgives)
    | working hpresent hgives =>
      exact (if_pos (StoredFile.isPresent_iff.mpr hpresent)).trans (gives_settings_iff.mp hgives)
    | system hmissing hpresent hgives =>
      rw [findSettings, hmissing]
      exact (if_pos (StoredFile.isPresent_iff.mpr hpresent)).trans (gives_settings_iff.mp hgives)
    | defaults hmissing hmissing' => rw [findSettings, hmissing, hmissing']; rfl
  · rintro rfl
    cases path with
    | some path =>
      by_cases hnamed : files.namedSettings = .missing
      · rw [findSettings, hnamed]
        exact .absent hnamed
      · rw [findSettings, if_pos (StoredFile.isPresent_iff.mpr hnamed)]
        exact .named hnamed (gives_settings_iff.mpr rfl)
    | none =>
      by_cases hlocal : files.localSettings = .missing
      · by_cases hsystem : files.systemSettings = .missing
        · rw [findSettings, hlocal, hsystem]
          exact .defaults hlocal hsystem
        · rw [findSettings, hlocal]
          rw [if_neg (by decide), if_pos (StoredFile.isPresent_iff.mpr hsystem)]
          exact .system hlocal hsystem (gives_settings_iff.mpr rfl)
      · rw [findSettings, if_pos (StoredFile.isPresent_iff.mpr hlocal)]
        exact .working hlocal (gives_settings_iff.mpr rfl)

/-- The rules of a replay are the replay. -/
theorem ends_iff {result : Except Failure Replay} :
    Ends files options result ↔ run files options = result := by
  constructor
  · intro h
    cases h with
    | atSettings hsettles => rw [run, settles_iff.mp hsettles]; rfl
    | atDocument hsettles hdocument =>
      rw [run, settles_iff.mp hsettles, hdocument.read_eq]
      rfl
    | atEvents hsettles hdocument hevents =>
      rw [run, settles_iff.mp hsettles, hdocument, gives_events_iff.mp hevents]
      rfl
    | finished hsettles hdocument hevents =>
      rw [run, settles_iff.mp hsettles, hdocument, gives_events_iff.mp hevents]
      rfl
  · rintro rfl
    cases hsettings : findSettings files options.settingsPath with
    | error failure =>
      rw [run, hsettings]
      exact .atSettings (settles_iff.mpr hsettings)
    | ok settings =>
      have hsettles := settles_iff.mpr hsettings
      obtain ⟨failure, hfails, hread⟩ | ⟨text, htext, hread⟩ := files.document.read_cases
      · rw [run, hsettings, hread]
        exact .atDocument hsettles hfails
      · cases hevents : eventsIn files.events with
        | error failure =>
          rw [run, hsettings, hread, hevents]
          exact .atEvents hsettles htext (gives_events_iff.mpr hevents)
        | ok events =>
          rw [run, hsettings, hread, hevents]
          exact .finished hsettles htext (gives_events_iff.mpr hevents)

/-! ## Which files count -/

/-- What a replay may read. -/
inductive Input where
  /-- The document. -/
  | document
  /-- The recorded events. -/
  | events
  /-- The settings that the user names. -/
  | namedSettings
  /-- The settings of the working directory. -/
  | localSettings
  /-- The settings of the system. -/
  | systemSettings
deriving DecidableEq, Repr

/-- What is stored in a file. -/
def Files.at (files : Files) : Input → StoredFile
  | .document => files.document
  | .events => files.events
  | .namedSettings => files.namedSettings
  | .localSettings => files.localSettings
  | .systemSettings => files.systemSettings

/-- Which files a replay looks at. -/
inductive Consults (files : Files) (options : Options) : Input → Prop
  /-- The settings that the user names. -/
  | namedSettings {path : String} : options.settingsPath = some path →
      Consults files options .namedSettings
  /-- If the user names none, the settings of the working directory. -/
  | localSettings : options.settingsPath = none → Consults files options .localSettings
  /-- If there are none there either, the settings of the system. -/
  | systemSettings : options.settingsPath = none → files.localSettings = .missing →
      Consults files options .systemSettings
  /-- If there are settings, the document. -/
  | document {settings : Settings} : Settles files options.settingsPath (.ok settings) →
      Consults files options .document
  /-- If there are settings and a document, the events. -/
  | events {settings : Settings} {text : String} :
      Settles files options.settingsPath (.ok settings) → files.document = .text text →
      Consults files options .events

section Agree

variable (hagree : ∀ input, Consults files options input → files'.at input = files.at input)

include hagree

/-- Files that agree where the replay looks have the same settings. -/
theorem Settles.congr {result : Except Failure Settings}
    (h : Settles files options.settingsPath result) :
    Settles files' options.settingsPath result := by
  cases hpath : options.settingsPath with
  | some path =>
    have hnamed : files'.namedSettings = files.namedSettings := hagree _ (.namedSettings hpath)
    rw [hpath] at h
    cases h with
    | absent hmissing => exact .absent (hnamed.trans hmissing)
    | named hpresent hgives => exact .named (hnamed ▸ hpresent) (hnamed ▸ hgives)
  | none =>
    have hlocal : files'.localSettings = files.localSettings := hagree _ (.localSettings hpath)
    rw [hpath] at h
    cases h with
    | working hpresent hgives => exact .working (hlocal ▸ hpresent) (hlocal ▸ hgives)
    | system hmissing hpresent hgives =>
      have hsystem : files'.systemSettings = files.systemSettings :=
        hagree _ (.systemSettings hpath hmissing)
      exact .system (hlocal.trans hmissing) (hsystem ▸ hpresent) (hsystem ▸ hgives)
    | defaults hmissing hmissing' =>
      have hsystem : files'.systemSettings = files.systemSettings :=
        hagree _ (.systemSettings hpath hmissing)
      exact .defaults (hlocal.trans hmissing) (hsystem.trans hmissing')

/-- Files that agree where the replay looks are replayed alike. -/
theorem Ends.congr {result : Except Failure Replay} (h : Ends files options result) :
    Ends files' options result := by
  have hdocument {settings : Settings}
      (hsettles : Settles files options.settingsPath (.ok settings)) :
      files'.document = files.document := hagree _ (.document hsettles)
  have hevents {settings : Settings} {text : String}
      (hsettles : Settles files options.settingsPath (.ok settings))
      (htext : files.document = .text text) : files'.events = files.events :=
    hagree _ (.events hsettles htext)
  cases h with
  | atSettings hsettles => exact .atSettings (hsettles.congr hagree)
  | atDocument hsettles hfails =>
    exact .atDocument (hsettles.congr hagree) (hdocument hsettles ▸ hfails)
  | atEvents hsettles htext hgives =>
    exact .atEvents (hsettles.congr hagree) ((hdocument hsettles).trans htext)
      (hevents hsettles htext ▸ hgives)
  | finished hsettles htext hgives =>
    exact .finished (hsettles.congr hagree) ((hdocument hsettles).trans htext)
      (hevents hsettles htext ▸ hgives)

end Agree

/-- **A replay ends at the first step that fails, and looks no further.**  It ends as the rules
say, and in no other way.  Files that it does not look at may hold anything.  A file of bytes is a
text if the bytes are the UTF-8 of one, and cannot be read if not. -/
theorem run_ends (files : Files) (options : Options) :
    (∀ result, run files options = result ↔ Ends files options result) ∧
      (∀ files', (∀ input, Consults files options input → files'.at input = files.at input) →
        run files' options = run files options) ∧
      (∀ content : String, StoredFile.ofBytes content.toUTF8 = .text content) ∧
      ∀ bytes : ByteArray, (∀ content : String, content.toUTF8 ≠ bytes) →
        StoredFile.ofBytes bytes = .unreadable "stream did not contain valid UTF-8" :=
  ⟨fun _ ↦ ends_iff.symm, fun _ hagree ↦ ends_iff.mp ((ends_iff.mpr rfl).congr hagree),
    StoredFile.ofBytes_toUTF8, fun _ h ↦ StoredFile.ofBytes_of_forall_ne h⟩

/-- Settings of the working directory that mean nothing end a replay, though there are others,
and whatever else is stored.  Without them the settings of the system count, and the user's
choice of a family over theirs. -/
theorem run_ends_at_local_settings :
    let files : Files := {
      document := .missing
      events := .ofBytes ⟨#[0xff]⟩
      namedSettings := .text ""
      localSettings := .text "family = 3"
      systemSettings := .text "family = \"xml\"" }
    let others : Files := {
      document := .text "<a>"
      events := .text ""
      namedSettings := .missing
      localSettings := .text "family = 3"
      systemSettings := .missing }
    let reached : Files := { others with
      localSettings := .missing
      systemSettings := .text "family = \"xml\"" }
    run files {} = .error (.settings "Failed to parse TOML configuration") ∧
      run others {} = run files {} ∧
      run reached { family := some .schema } =
        .ok ⟨.ofString "<a>", Pass.run { family := .schema } (.ofString "<a>") []⟩ := by
  intro files others reached
  have hsettles : Settles files none (.error (.settings "Failed to parse TOML configuration")) :=
    .working (by decide) (.malformed (by decide +kernel))
  obtain ⟨hends, hagree, -⟩ := run_ends files {}
  refine ⟨(hends _).mpr (.atSettings hsettles), hagree others ?_, ?_⟩
  · intro input hconsults
    have hnot {settings : Settings} : ¬ Settles files none (.ok settings) := fun h ↦ by
      cases (settles_iff.mp hsettles).symm.trans (settles_iff.mp h)
    cases hconsults with
    | namedSettings hpath => cases hpath
    | localSettings _ => rfl
    | systemSettings _ hmissing => cases hmissing
    | document h => exact absurd h hnot
    | events h _ => exact absurd h hnot
  · have hfamily : Settings.ofText? "family = \"xml\"" = some {} := by decide +kernel
    have hentries : Toml.ofText? "" = some [] := by cbv
    have hevents : Event.listOfText? "" = some [] := by
      rw [Event.listOfText?, hentries]
      rfl
    have hreached : Ends reached { family := some .schema } _ :=
      .finished (.system rfl (by decide) (.value hfamily)) rfl (.value hevents)
    exact ((run_ends reached _).1 _).mpr hreached

end Replay

end XmlDiagnostics
