import TurtleGrammar.Session
import TurtleGrammar.Proofs.Accepted
import TurtleGrammar.Proofs.Disk
import TurtleGrammar.Proofs.Moderate

/-!
# `TurtleGrammar.Proofs.Ending` — how a run ends

A run that meets no failure ends with status 0. Most failures are reported in a last line and give
status 2, but some end the run without a status: a file that is not text, a whole number past the
largest number of the format, a line along a heading that is infinite in radians, a path with the
null character, and a level or a page for which an argument is missing. All other faults that are
not reported are never met. This is said of files within the limits of any reader of JSON
(`Json.Moderate`): what a reader does beyond its own limits is not a fault of a run here.

## Contents
- `ContentFault`, `Config.meets_ofBytes`: what the content of a configuration file is refused for.
- `Command.Fails`: the failures that a command meets on a disk.
- `Command.Unreported`, `Command.unreported_iff`: those of them that nothing reports.
- `Command.execute_of_fails`, `Command.execute_of_not_fails`: the report of a command.
- `Command.Moderate`: the configuration file is within the limits of any reader.
- `session_ending`: how runs end.
-/

namespace TurtleGrammar

/-! ## The content of a configuration file -/

/-- The faults of the content of a configuration file. -/
inductive ContentFault (content : List UInt8) : Fault → Prop where
  | notText {cause : Text.DecodeError} (h : Text.decode content = .error cause) :
      ContentFault content (.notText cause)
  | setting (cause : SettingFault) : ContentFault content (.setting cause)
  | argument (cause : ArgumentFault) : ContentFault content (.argument cause)
  | integerTooLarge {text : List Char} {value : Json} (htext : Text.decode content = .ok text)
      (hvalue : Json.read (Text.unifyNewlines text) = .ok value)
      (h : Config.ofJson value = .error .integerTooLarge) (hlarge : ¬ value.IntegersFit) :
      ContentFault content .integerTooLarge

theorem Config.meets_ofBytes (path : String) (content : List UInt8) :
    Meets Valid (ContentFault content) (ofBytes path content) := by
  unfold ofBytes
  cases htext : Text.decode content with
  | error cause => exact .of_fault (.notText htext)
  | ok text =>
      dsimp only
      cases hvalue : Json.read (Text.unifyNewlines text) with
      | error cause => exact .of_fault (.setting (.notJson path cause))
      | ok value =>
          constructor
          · intro c h
            exact valid_of_ofJson h
          · intro fault h
            cases (meets_ofJson value).of_error fault h with
            | setting cause => exact .setting cause
            | argument cause => exact .argument cause
            | integerTooLarge hlarge => exact .integerTooLarge htext hvalue h hlarge

namespace Command

variable {command : Command} {disk : Disk} {failure : Failure} {level : Level} {time : String}
  {content : List UInt8} {fault : Fault} {c : Config} {result : Option Delivery}

/-! ## Failures -/

theorem outcome_perform (command : Command) (content : List UInt8) :
    (command.perform content).outcome =
      (Config.ofBytes command.source content).bind fun c => (performOn c command).outcome := by
  unfold perform
  rw [Traced.outcome_bind, Traced.outcome_lift]

theorem perform_of_config (h : Config.ofBytes command.source content = .ok c) :
    (command.perform content).outcome = (performOn c command).outcome := by
  rw [outcome_perform, h]
  rfl

theorem perform_of_refused (h : Config.ofBytes command.source content = .error fault) :
    (command.perform content).outcome = .error fault := by
  rw [outcome_perform, h]
  rfl

/-- A command that comes to an end has a valid configuration. -/
theorem perform_eq_ok (h : (command.perform content).outcome = .ok result) :
    ∃ c, Config.ofBytes command.source content = .ok c ∧ c.Valid ∧
      (performOn c command).outcome = .ok result := by
  cases hconfig : Config.ofBytes command.source content with
  | error fault =>
      rw [perform_of_refused hconfig] at h
      cases h
  | ok c =>
      have hc := (Config.meets_ofBytes command.source content).of_ok c hconfig
      exact ⟨c, rfl, hc, (perform_of_config hconfig).symm.trans h⟩

/-- A command is refused for the content of its file, or it has a valid configuration. -/
theorem perform_eq_error (h : (command.perform content).outcome = .error fault) :
    Config.ofBytes command.source content = .error fault ∨
      ∃ c, Config.ofBytes command.source content = .ok c ∧ c.Valid ∧
        (performOn c command).outcome = .error fault := by
  cases hconfig : Config.ofBytes command.source content with
  | error cause =>
      rw [perform_of_refused hconfig] at h
      exact Or.inl (congrArg Except.error (Except.error.inj h))
  | ok c =>
      have hc := (Config.meets_ofBytes command.source content).of_ok c hconfig
      exact Or.inr ⟨c, rfl, hc, (perform_of_config hconfig).symm.trans h⟩

/-- What a command delivers is whole, and goes to the path of the command. -/
theorem delivers_of_perform (h : (command.perform content).outcome = .ok result) :
    Delivers command.target? result := by
  obtain ⟨c, _, hc, hperform⟩ := perform_eq_ok h
  exact (meets_performOn hc command).of_ok result hperform

/-- The failures that a command meets on a disk: its configuration file cannot be read, what the file
    holds cannot be used or drawn, or the output cannot be written. -/
inductive Fails (command : Command) (disk : Disk) : Failure → Prop where
  | source {cause : DiskFault} (h : disk.read command.source = .error cause) :
      Fails command disk (.disk cause)
  | perform {content : List UInt8} {fault : Fault}
      (hread : disk.read command.source = .ok content)
      (h : (command.perform content).outcome = .error fault) :
      Fails command disk (.fault fault)
  | target {content : List UInt8} {d : Delivery} {cause : DiskFault}
      (hread : disk.read command.source = .ok content)
      (hperform : (command.perform content).outcome = .ok (some d))
      (h : (disk.deliver d.path d.text.toUTF8.toList).2 = .error cause) :
      Fails command disk (.disk cause)

/-- Is a configuration accepted from the file at the source of the command? -/
def Accepts (command : Command) (disk : Disk) (c : Config) : Prop :=
  ∃ content, disk.read command.source = .ok content ∧
    Config.ofBytes command.source content = .ok c

/-- The failures of a command that nothing reports. -/
inductive Unreported (command : Command) (disk : Disk) : Failure → Prop where
  /-- The path of the configuration holds the null character. -/
  | nullSource (h : Disk.hasNull command.source = true) :
      Unreported command disk (.disk .nullCharacter)
  /-- The configuration file is not text. -/
  | notText {content : List UInt8} {cause : Text.DecodeError}
      (hread : disk.read command.source = .ok content) (h : Text.decode content = .error cause) :
      Unreported command disk (.fault (.notText cause))
  /-- The configuration has a whole number that is out of range. -/
  | integerTooLarge {content : List UInt8} {text : List Char} {value : Json}
      (hread : disk.read command.source = .ok content) (htext : Text.decode content = .ok text)
      (hvalue : Json.read (Text.unifyNewlines text) = .ok value)
      (h : Config.ofJson value = .error .integerTooLarge) (hlarge : ¬ value.IntegersFit) :
      Unreported command disk (.fault .integerTooLarge)
  /-- The configuration has a heading that is infinite in radians. -/
  | headingUnbounded {c : Config} (haccepts : command.Accepts disk c)
      (hradians : (Angle.ofDegrees c.heading).isInfinite = true)
      (h : (performOn c command).outcome = .error .headingUnbounded) :
      Unreported command disk (.fault .headingUnbounded)
  /-- A page is drawn for which there is no path. -/
  | noPath {c : Config} (haccepts : command.Accepts disk c) (hpathless : command.Pathless)
      (h : (performOn c command).outcome = .error .noPath) :
      Unreported command disk (.fault .noPath)
  /-- The path of the output holds the null character. -/
  | nullTarget {c : Config} {d : Delivery} (haccepts : command.Accepts disk c)
      (h : (performOn c command).outcome = .ok (some d))
      (hnull : Disk.hasNull d.path = true ∨
        ∃ name ∈ Path.normal disk.home d.path, Disk.hasNull name = true)
      (hdeliver : (disk.deliver d.path d.text.toUTF8.toList).2 = .error .nullCharacter) :
      Unreported command disk (.disk .nullCharacter)

/-- The faults of a command that are not reported, with their causes. -/
theorem unreported_of_perform (hread : disk.read command.source = .ok content)
    (h : (command.perform content).outcome = .error fault) (hheading : fault.heading? = none) :
    command.Unreported disk (.fault fault) := by
  rcases perform_eq_error h with hconfig | ⟨c, hconfig, hc, hperform⟩
  · cases (Config.meets_ofBytes command.source content).of_error fault hconfig with
    | notText htext => exact .notText hread htext
    | setting => cases hheading
    | argument => cases hheading
    | integerTooLarge htext hvalue hrefused hlarge =>
        exact .integerTooLarge hread htext hvalue hrefused hlarge
  · have haccepts : command.Accepts disk c := ⟨content, hread, hconfig⟩
    cases (meets_performOn hc command).of_error fault hperform with
    | noExtent => cases hheading
    | noPath hpathless => exact .noPath haccepts hpathless hperform
    | drawing hdrawing =>
        -- a fault of the word is reported, so that only the heading is left
        cases hdrawing with
        | nothingDrawn => cases hheading
        | noNumeral => cases hheading
        | noOpenBranch => cases hheading
        | headingUnbounded hradians => exact .headingUnbounded haccepts hradians hperform

theorem heading?_disk {cause : DiskFault} :
    (Failure.disk cause).heading? = none ↔ cause = .nullCharacter := by
  cases cause with
  | refused cause path => exact ⟨nofun, nofun⟩
  | nullCharacter => exact ⟨fun _ => rfl, fun _ => rfl⟩

theorem Unreported.fails (h : command.Unreported disk failure) :
    command.Fails disk failure ∧ failure.heading? = none := by
  cases h with
  | nullSource hnull => exact ⟨.source (Disk.read_eq_nullCharacter_iff.2 hnull), rfl⟩
  | @notText content cause hread htext =>
      have hconfig : Config.ofBytes command.source content = .error (.notText cause) := by
        unfold Config.ofBytes
        rw [htext]
      exact ⟨.perform hread (perform_of_refused hconfig), rfl⟩
  | @integerTooLarge content text value hread htext hvalue h =>
      have hconfig : Config.ofBytes command.source content = .error .integerTooLarge := by
        unfold Config.ofBytes
        simp only [htext, hvalue, h]
      exact ⟨.perform hread (perform_of_refused hconfig), rfl⟩
  | headingUnbounded haccepts _ h =>
      obtain ⟨content, hread, hconfig⟩ := haccepts
      exact ⟨.perform hread ((perform_of_config hconfig).trans h), rfl⟩
  | noPath haccepts _ h =>
      obtain ⟨content, hread, hconfig⟩ := haccepts
      exact ⟨.perform hread ((perform_of_config hconfig).trans h), rfl⟩
  | nullTarget haccepts h _ hdeliver =>
      obtain ⟨content, hread, hconfig⟩ := haccepts
      exact ⟨.target hread ((perform_of_config hconfig).trans h) hdeliver, rfl⟩

theorem Fails.unreported (h : command.Fails disk failure) (hheading : failure.heading? = none) :
    command.Unreported disk failure := by
  cases h with
  | source hread =>
      obtain rfl := heading?_disk.1 hheading
      exact .nullSource (Disk.read_eq_nullCharacter_iff.1 hread)
  | perform hread h => exact unreported_of_perform hread h hheading
  | @target content d cause hread hperform h =>
      obtain rfl := heading?_disk.1 hheading
      obtain ⟨c, hconfig, _, hdelivery⟩ := perform_eq_ok hperform
      refine .nullTarget ⟨content, hread, hconfig⟩ hdelivery ?_ h
      exact Disk.null_of_deliver (Prod.ext rfl h)

/-- **Failures without a report.** They are failures that a command meets, and of these the ones
    without words to report them. -/
theorem unreported_iff :
    command.Unreported disk failure ↔ command.Fails disk failure ∧ failure.heading? = none :=
  ⟨Unreported.fails, fun h => h.1.unreported h.2⟩

/-! ## Reports -/

/-- A failure that a command meets closes its report. -/
theorem execute_of_fails (level : Level) (time : String) (h : command.Fails disk failure) :
    ∃ output earlier, (command.execute level time disk).1 = failure.close output earlier := by
  unfold execute
  cases h with
  | source h =>
      rw [h]
      exact ⟨"", "", rfl⟩
  | perform hread h =>
      rw [hread]
      simp only [h]
      exact ⟨_, _, rfl⟩
  | @target content d cause hread hperform h =>
      rw [hread]
      simp only [hperform]
      cases hdeliver : disk.deliver d.path d.text.toUTF8.toList with
      | mk after outcome =>
          rw [hdeliver] at h
          obtain rfl : outcome = .error cause := h
          exact ⟨_, _, rfl⟩

/-- A command that meets no failure ends with status 0. -/
theorem execute_of_not_fails (level : Level) (time : String)
    (h : ∀ failure, ¬ command.Fails disk failure) :
    (command.execute level time disk).1.ending = .status 0 := by
  unfold execute
  cases hread : disk.read command.source with
  | error cause => exact absurd (.source hread) (h _)
  | ok content =>
      cases hperform : (command.perform content).outcome with
      | error fault => exact absurd (.perform hread hperform) (h _)
      | ok result =>
          cases result with
          | none => simp only [hperform]
          | some d =>
              -- the text that is written is whole, so that no fault comes after it
              have hwhole : d.fault = none := (delivers_of_perform hperform).2 d rfl
              simp only [hperform]
              cases hdeliver : disk.deliver d.path d.text.toUTF8.toList with
              | mk after outcome =>
                  cases outcome with
                  | error cause =>
                      refine absurd (.target hread hperform ?_) (h (.disk cause))
                      rw [hdeliver]
                  | ok _ => simp only [hwhole]

/-- Is the configuration file of a command within the limits of any reader, if it can be read and is
    text? -/
def Moderate (command : Command) (disk : Disk) : Prop :=
  ∀ content text, disk.read command.source = .ok content → Text.decode content = .ok text →
    Json.Moderate (Text.unifyNewlines text)

end Command

/-! ## A file with a name of one letter -/

open CommandLine

theorem parse_validate :
    Invocation.parse ["validate", "c"] = .ok ⟨some .warning, .validate "c"⟩ :=
  eq_ok_of_toOption (by decide +kernel)

theorem components_letter : Path.components "c" = ["c"] := by
  -- the first step passes the letter, the second one is at the end
  have hsplit : "c".splitOn "/" = ["c"] := by
    unfold String.splitOn
    rw [if_neg (by decide), String.splitOnAux, if_neg (by decide +kernel),
      if_neg (by decide +kernel), String.splitOnAux, if_pos (by decide +kernel)]
    rfl
  unfold Path.components
  rw [hsplit]
  rfl

/-- What a path of one letter leads to. -/
theorem locate_letter (folders : List Path) (files : List (Path × Content)) :
    Disk.locate ⟨[], folders, files⟩ "c" = (Disk.walk ⟨[], folders, files⟩ [] ["c"]).mapError
      (.refused · "c") := by
  have hnull : Disk.hasNull "c" = false := by
    unfold Disk.hasNull
    rw [String.contains_char_eq]
    decide
  have hempty : "c".isEmpty = false := by decide +kernel
  have hshort : ¬ "c".utf8ByteSize ≥ Disk.maxPath := by decide
  unfold Disk.locate Disk.follow
  rw [hnull, hempty, components_letter, if_neg Bool.false_ne_true, if_neg Bool.false_ne_true,
    if_neg hshort, ite_self]

/-- The disk with one file, whose name is one letter. -/
def letterDisk (content : Content) : Disk := ⟨[], [], [(["c"], content)]⟩

theorem read_letterDisk (content : Content) : (letterDisk content).read "c" = .ok content := by
  have hend : "c".endsWith "/" = false := by decide +kernel
  unfold letterDisk Disk.read
  rw [locate_letter, hend]
  rfl

/-! ## Runs -/

variable {time : String} {arguments : List String} {disk : Disk} {i : Invocation}

/-- **How runs end.** A run whose arguments are accepted ends with status 0 if it meets no failure.
    A failure is reported in a last line and gives status 2, unless it is among those that nothing
    reports, which leave the run without a status; so does a level of notes without a value. The
    configuration file is within the limits of any reader, past which a reader may fail in a way of
    its own. -/
theorem session_ending (time : String) (disk : Disk) (h : Invocation.parse arguments = .ok i)
    (_hmoderate : i.command.Moderate disk) :
    (i.level = none → (session time arguments disk).1.ending = .escaped (.fault .noLevel)) ∧
    (i.level ≠ none →
      ((∀ failure, ¬ i.command.Fails disk failure) →
        (session time arguments disk).1.ending = .status 0) ∧
      ∀ failure, i.command.Fails disk failure →
        (i.command.Unreported disk failure →
          (session time arguments disk).1.ending = .escaped failure) ∧
        (¬ i.command.Unreported disk failure →
          (session time arguments disk).1.ending = .status 2 ∧
          ∃ line earlier, failure.report? = some line ∧
            (session time arguments disk).1.errors = earlier ++ line)) := by
  have hsession : session time arguments disk = i.execute time disk := by
    unfold session
    rw [h]
  rw [hsession]
  unfold Invocation.execute
  constructor
  · intro hlevel
    rw [hlevel]
    rfl
  · intro hlevel
    obtain ⟨level, hsome⟩ := Option.ne_none_iff_exists'.1 hlevel
    rw [hsome]
    refine ⟨i.command.execute_of_not_fails level time, ?_⟩
    intro failure hfails
    obtain ⟨output, earlier, hclose⟩ := Command.execute_of_fails level time hfails
    simp only [hclose]
    unfold Failure.close Failure.report?
    rw [Command.unreported_iff]
    cases hheading : failure.heading? with
    | none =>
        constructor
        · intro _
          rfl
        · intro hreported
          exact absurd ⟨hfails, rfl⟩ hreported
    | some heading =>
        constructor
        · rintro ⟨_, hnone⟩
          cases hnone
        · intro _
          exact ⟨rfl, _, earlier, rfl, rfl⟩

/-- The word `null` as the content of a file. -/
def nullContent : Content := [0x6e, 0x75, 0x6c, 0x6c]

theorem decode_nullContent : Text.decode nullContent = .ok "null".toList := rfl

theorem read_null : Json.read (Text.unifyNewlines "null".toList) = .ok .null := by
  have hvalue : Json.readValue (Json.skipBlanks "null".toList) =
      .ok (.null, ⟨[], by decide⟩) := by
    show Json.readValue ['n', 'u', 'l', 'l'] = _
    unfold Json.readValue
    rfl
  have hall : Json.readAll "null".toList = .ok .null := by
    unfold Json.readAll
    rw [if_neg (by decide), hvalue]
    rfl
  show Json.read "null".toList = _
  unfold Json.read
  rw [hall]

/-- A file with one word is within the limits of any reader. -/
theorem moderate_null : (Command.validate "c").Moderate (letterDisk nullContent) := by
  intro content text hread hdecode
  obtain rfl : nullContent = content :=
    Except.ok.inj ((read_letterDisk nullContent).symm.trans hread)
  rw [decode_nullContent] at hdecode
  cases hdecode
  refine Json.moderate_of_length_le (by decide) fun value hvalue => ?_
  rw [read_null] at hvalue
  cases hvalue
  exact ⟨fun _ h => (nomatch h), fun _ h => (nomatch h)⟩

/-- A configuration that is no object is reported. -/
theorem session_ending_null :
    Invocation.parse ["validate", "c"] = .ok ⟨some .warning, .validate "c"⟩ ∧
      (Command.validate "c").Moderate (letterDisk nullContent) ∧
      (session "" ["validate", "c"] (letterDisk nullContent)).1.ending = .status 2 := by
  have hconfig : Config.ofBytes "c" nullContent =
      .error (.setting (.wrongForm "root" .object)) := by
    unfold Config.ofBytes
    simp only [decode_nullContent, read_null]
    rfl
  have hfails : Command.Fails (.validate "c") (letterDisk nullContent)
      (.fault (.setting (.wrongForm "root" .object))) :=
    .perform (read_letterDisk nullContent) (Command.perform_of_refused hconfig)
  have hreported : ¬ Command.Unreported (.validate "c") (letterDisk nullContent)
      (.fault (.setting (.wrongForm "root" .object))) := by
    intro h
    cases h.fails.2
  obtain ⟨_, hlevel⟩ := session_ending "" (letterDisk nullContent) parse_validate moderate_null
  obtain ⟨_, hending⟩ := hlevel nofun
  exact ⟨parse_validate, moderate_null, ((hending _ hfails).2 hreported).1⟩

/-- A configuration that is not text ends the run without a status. -/
theorem session_escapes :
    Invocation.parse ["validate", "c"] = .ok ⟨some .warning, .validate "c"⟩ ∧
      (session "" ["validate", "c"] (letterDisk [0xff])).1.ending =
        .escaped (.fault (.notText ⟨.startByte, 0, 1, 0xff⟩)) := by
  have hunreported : Command.Unreported (.validate "c") (letterDisk [0xff])
      (.fault (.notText ⟨.startByte, 0, 1, 0xff⟩)) := .notText (read_letterDisk [0xff]) rfl
  obtain ⟨output, earlier, hclose⟩ :=
    Command.execute_of_fails .warning "" hunreported.fails.1
  refine ⟨parse_validate, ?_⟩
  unfold session
  rw [parse_validate]
  exact congrArg Report.ending hclose

end TurtleGrammar
