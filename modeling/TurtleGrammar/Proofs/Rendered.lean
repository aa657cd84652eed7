import TurtleGrammar.Proofs.Untouched

/-!
# `TurtleGrammar.Proofs.Rendered` — pages that a run has written

A run that renders and ends with status 0 has read and accepted its configuration, drawn its
segments, made the document of them and replaced its target with it. The other way round, a
configuration over which its own page is written is a run that ends so.

## Contents
- `Command.exists_of_ended`, `Command.exists_of_performRender`: what a run that ends has done.
- `session_letterDisk`: a page over its own configuration.
-/

namespace TurtleGrammar

namespace Command

variable {command : Command} {level : Level} {time : String} {disk : Disk} {c : Config}
  {target : Option String} {result : Option Delivery}

/-- A command that ends with status 0 has read its configuration and come to its end, and what it
    delivers has been written. -/
theorem exists_of_ended (hended : (command.execute level time disk).1.ending = .status 0) :
    ∃ content result, disk.read command.source = .ok content ∧
      (command.perform content).outcome = .ok result ∧
      ∀ d ∈ result, disk.Replaced (command.execute level time disk).2 d.path
        d.text.toUTF8.toList := by
  unfold execute at hended ⊢
  cases hread : disk.read command.source with
  | error cause =>
      rw [hread] at hended
      exact absurd hended (Failure.ending_close_ne _ _ _)
  | ok content =>
      rw [hread] at hended
      cases hperform : (command.perform content).outcome with
      | error fault =>
          simp only [hperform] at hended
          exact absurd hended (Failure.ending_close_ne _ _ _)
      | ok result =>
          refine ⟨content, result, rfl, hperform, ?_⟩
          rintro d ⟨⟩
          simp only [hperform] at hended ⊢
          cases hdeliver : disk.deliver d.path d.text.toUTF8.toList with
          | mk after outcome =>
              rw [hdeliver] at hended
              cases outcome with
              | error cause => exact absurd hended (Failure.ending_close_ne _ _ _)
              | ok _ =>
                  have hwhole : d.fault = none := (delivers_of_perform hperform).2 d rfl
                  simp only [hwhole]
                  exact Disk.content?_deliver hdeliver

/-- A page that is rendered has a path, and is the document of the segments drawn. -/
theorem exists_of_performRender (h : (performRender c target).outcome = .ok result) :
    ∃ path segments text notes, target = some path ∧ c.drawing.segments.outcome = .ok segments ∧
      Svg.document c.page segments = .ok text ∧ result = some ⟨path, text, none, notes⟩ := by
  unfold performRender at h
  rw [Traced.outcome_bind] at h
  cases hsegments : (Run.ofTraced c.drawing.segments).outcome with
  | error fault =>
      rw [hsegments] at h
      cases h
  | ok segments =>
      rw [hsegments] at h
      simp only [Except.bind, Traced.outcome_bind, Traced.outcome_lift] at h
      cases htext : Svg.document c.page segments with
      | error fault =>
          rw [htext] at h
          cases h
      | ok text =>
          rw [htext] at h
          cases target with
          | none => cases h
          | some path =>
              exact ⟨path, segments, text, _, rfl, hsegments, htext, (Except.ok.inj h).symm⟩

end Command

open CommandLine

/-! ## A page over its own configuration -/

theorem parse_render :
    Invocation.parse ["render", "c", "c"] = .ok ⟨some .warning, .render "c" (some "c")⟩ :=
  eq_ok_of_toOption (by decide +kernel)

/-- Over a file with a name of one letter any content can be written. -/
theorem deliver_letterDisk (content after : Content) :
    (letterDisk content).deliver "c" after = (letterDisk after, .ok ()) := by
  have hend : "c".endsWith "/" = false := by decide +kernel
  have hparent : (letterDisk content).makeParent "c" = (letterDisk content, .ok ()) := by
    have hnormal : Path.normal [] "c" = ["c"] := by
      unfold Path.normal
      rw [components_letter, ite_self]
      rfl
    show (letterDisk content).makeFolders (Path.root "c") [] (Path.normal [] "c").dropLast = _
    rw [hnormal]
    rfl
  have hwrite : (letterDisk content).write "c" after = .ok (letterDisk after) := by
    unfold Disk.write Disk.place letterDisk
    rw [hend, locate_letter]
    rfl
  unfold Disk.deliver
  rw [hparent]
  simp only [hwrite]

/-- The page of a configuration, if its value is accepted and its segments are drawn. -/
def page? (value : Json) : Option String :=
  (Config.ofJson value).toOption.bind fun c =>
    (Command.performRender c (some "c")).outcome.toOption.join.map Delivery.text

/-- A configuration that has a page is accepted, and the page is delivered. -/
theorem exists_of_page? {value : Json} {page : String} (h : page? value = some page) :
    ∃ c notes, Config.ofJson value = .ok c ∧
      (Command.performRender c (some "c")).outcome = .ok (some ⟨"c", page, none, notes⟩) := by
  unfold page? at h
  cases hread : Config.ofJson value with
  | error fault =>
      rw [hread] at h
      cases h
  | ok c =>
      rw [hread] at h
      change (Command.performRender c (some "c")).outcome.toOption.join.map _ = _ at h
      cases hresult : (Command.performRender c (some "c")).outcome with
      | error fault =>
          rw [hresult] at h
          cases h
      | ok result =>
          obtain ⟨path, segments, shown, notes, hpath, _, _, rfl⟩ :=
            Command.exists_of_performRender hresult
          rw [hresult] at h
          obtain rfl := Option.some.inj hpath
          obtain rfl : shown = page := Option.some.inj h
          exact ⟨c, notes, rfl, hresult⟩

/-- A configuration that is read and has a page is replaced with its page. -/
theorem session_letterDisk {content : Content} {text : List Char} {value : Json} {page : String}
    (htext : Text.decode content = .ok text)
    (hvalue : Json.read (Text.unifyNewlines text) = .ok value) (hpage : page? value = some page) :
    (session "" ["render", "c", "c"] (letterDisk content)).1.ending = .status 0 ∧
      (session "" ["render", "c", "c"] (letterDisk content)).2 =
        letterDisk page.toUTF8.toList := by
  obtain ⟨c, notes, hconfig, hrendered⟩ := exists_of_page? hpage
  have hbytes : Config.ofBytes (Command.render "c" (some "c")).source content = .ok c := by
    unfold Config.ofBytes
    simp only [htext, hvalue, hconfig]
  have hperform : (Command.perform (.render "c" (some "c")) content).outcome =
      .ok (some ⟨"c", page, none, notes⟩) :=
    (Command.perform_of_config hbytes).trans hrendered
  have hread := read_letterDisk content
  have hdeliver := deliver_letterDisk content page.toUTF8.toList
  unfold session
  rw [parse_render]
  unfold Invocation.execute Command.execute
  simp only [Command.source, hread, hperform, hdeliver]
  exact ⟨trivial, trivial⟩

/-- The bytes of a text all of whose characters are ASCII. -/
def asciiContent (text : String) : Content := text.toList.map fun c => UInt8.ofNat c.toNat

/-- The members of a configuration of one line upwards. -/
def uprightMembers : List (String × Json) :=
  [("axiom", .string "F"), ("turtle", .object [("angle", .integer 90)]),
    ("output", .object [("remove_duplicates", .boolean false)])]

/-- The tag of the document around the line, with the usual margin. -/
def uprightOpening : String :=
  "<svg xmlns=\"http://www.w3.org/2000/svg\" version=\"1.1\" viewBox=\"-1 -1 2 3\">"

/-- The page of the line, with the given tags of the document and of the group. -/
def uprightPage (opening group : String) : String :=
  String.join
    (["<?xml version=\"1.0\" encoding=\"UTF-8\"?>", opening, "  <title>L-System</title>", group,
      "    <line x1=\"0\" y1=\"0\" x2=\"0\" y2=\"1\" />", "  </g>", "</svg>"].map (· ++ "\n"))

end TurtleGrammar
