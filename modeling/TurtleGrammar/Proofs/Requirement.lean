import TurtleGrammar.Config
import TurtleGrammar.Proofs.Refusal

/-!
# `TurtleGrammar.Proofs.Requirement` — the schema of configurations, requirement by requirement

What a configuration must be is a list of requirements, each with the fault it is refused for. The
list is computed from the value alone: whatever a value lacks counts as absent, and what is absent
has its default, so that the list is there for a value of any form. Reading goes through the list in
its order, and the first requirement that is not met decides. What is read is known from the
requirements that were met: a configuration has a step length above zero, a number of decimal places
within its limit, and sizes above zero.

## Contents
- `Json.hasForm` and the parts of a value of any form.
- `Requirement`, `firstUnmet`: requirements and the fault of the first one that is not met.
- `Follows`: a computation is refused for the first requirement that is not met, and what it gives
  is known. There is one such lemma for each reader.
- `Config.requirements`: the schema; `Config.Valid`: the conditions of what was read.
- `Config.ofJson_firstUnmet`: a configuration is read exactly if it follows its schema.
-/

namespace TurtleGrammar

/-! ## Values of any form -/

namespace Json

/-- Does a value have a form? Booleans are no numbers. -/
def hasForm : Form → Json → Bool
  | .number, .integer _ => true
  | .number, .float _ => true
  | .integer, .integer _ => true
  | .text, .string _ => true
  | .boolean, .boolean _ => true
  | .object, .object _ => true
  | .list, .array _ => true
  | .symbols, .string _ => true
  | .symbols, .array _ => true
  | .symbol, .string s => s.length == 1
  | _, _ => false

/-- The members of an object. -/
def members : Json → List (String × Json)
  | .object members => members
  | _ => []

/-- The items of a list. -/
def items : Json → List Json
  | .array items => items
  | _ => []

/-- A text. -/
def word : Json → String
  | .string s => s
  | _ => ""

/-- A whole number. -/
def whole : Json → Int
  | .integer n => n
  | _ => 0

/-- A number, unless it is an integer past the largest number of the format. -/
def number? : Json → Option Binary64
  | .integer n => Binary64.ofInt? n
  | .float x => some x
  | _ => none

end Json

/-! ## Requirements -/

/-- What is asked, whether it is so, and what is refused if it is not. -/
structure Requirement where
  met : Bool
  fault : Fault

namespace Requirement

/-- A setting has a form. -/
def form (setting : String) (form : Form) (value : Json) : Requirement :=
  ⟨value.hasForm form, .setting (.wrongForm setting form)⟩

/-- A setting is a number, and an integer in its place is in range. -/
def number (setting : String) (value : Json) : List Requirement :=
  [form setting .number value, ⟨value.number?.isSome, .integerTooLarge⟩]

/-- A setting is a number above zero. -/
def positive (setting : String) (value : Json) : List Requirement :=
  number setting value ++
    [⟨value.number?.any Binary64.isPositive, .setting (.notPositive setting)⟩]

/-- What is asked of a setting unless it is left open. -/
def unlessNull (asked : Json → List Requirement) : Json → List Requirement
  | .null => []
  | value => asked value

/-- What is asked of the elements of a list, one after the other. -/
def elements (setting : String) (form : Form) (items : List Json) : List Requirement :=
  items.zipIdx.map fun (item, index) => .form (Setting.element setting index) form item

/-- A setting is a text or a list of symbols. -/
def symbols (setting : String) (value : Json) : List Requirement :=
  form setting .symbols value :: elements setting .symbol value.items

/-- A rule is named by one symbol, and its replacement is a text. -/
def rule : String × Json → List Requirement
  | (name, value) =>
    [⟨name.length == 1, .setting .ruleName⟩, form ("rules[\x27" ++ name ++ "\x27]") .text value]

end Requirement

/-- The fault of the first requirement that is not met. -/
def firstUnmet (asked : List Requirement) : Option Fault :=
  (asked.find? fun r => !r.met).map Requirement.fault

/-- Later requirements decide only if all earlier ones are met. -/
theorem firstUnmet_append (first later : List Requirement) :
    firstUnmet (first ++ later) = (firstUnmet first).or (firstUnmet later) := by
  unfold firstUnmet
  rw [List.find?_append]
  cases first.find? fun r => !r.met <;> rfl

theorem firstUnmet_eq_none_iff {asked : List Requirement} :
    firstUnmet asked = none ↔ ∀ r ∈ asked, r.met = true := by
  simp [firstUnmet]

/-- The first requirement that is not met stands behind some that are. -/
theorem firstUnmet_eq_some_iff {asked : List Requirement} {fault : Fault} :
    firstUnmet asked = some fault ↔ ∃ before r after, asked = before ++ r :: after ∧
      (∀ earlier ∈ before, earlier.met = true) ∧ r.met = false ∧ r.fault = fault := by
  simp only [firstUnmet, Option.map_eq_some_iff, List.find?_eq_some_iff_append,
    Bool.not_eq_true', Bool.not_not]
  constructor
  · rintro ⟨r, ⟨hr, before, after, hasked, hbefore⟩, hfault⟩
    exact ⟨before, r, after, hasked, hbefore, hr, hfault⟩
  · rintro ⟨before, r, after, hasked, hbefore, hr, hfault⟩
    exact ⟨r, ⟨hr, before, after, hasked, hbefore⟩, hfault⟩

/-! ## Computations that follow requirements -/

variable {α β : Type} {good : α → Prop} {final : β → Prop}
  {asked later : List Requirement} {askedOf : β → List Requirement} {result : Except Fault α}

/-- A computation is refused exactly for the first requirement that is not met, and what it gives is
    good. -/
structure Follows (asked : List Requirement) (good : α → Prop) (result : Except Fault α) :
    Prop where
  fault_eq : fault? result = firstUnmet asked
  of_ok : ∀ value, result = .ok value → good value

namespace Follows

theorem of_value {value : α} (h : good value) : Follows [] good (.ok value) :=
  ⟨rfl, fun _ hok => Except.ok.inj hok ▸ h⟩

theorem forget (h : Follows asked good result) : Follows asked Anything result :=
  ⟨h.fault_eq, fun _ _ => trivial⟩

/-- What is met decides nothing. -/
theorem of_met {r : Requirement} (hr : r.met = true) (h : Follows later good result) :
    Follows ([r] ++ later) good result := by
  have hnone : firstUnmet [r] = none := firstUnmet_eq_none_iff.2 (List.forall_mem_singleton.2 hr)
  refine ⟨?_, h.of_ok⟩
  rw [firstUnmet_append, hnone]
  exact h.fault_eq

/-- What a computation gives is known to the next one, which has its own requirements. -/
theorem bind {next : α → Except Fault β} (h : Follows asked good result)
    (hnext : ∀ value, good value → Follows later final (next value)) :
    Follows (asked ++ later) final (result >>= next) := by
  have hfault := h.fault_eq
  cases result with
  | ok value =>
      have hrest := hnext value (h.of_ok value rfl)
      refine ⟨?_, hrest.of_ok⟩
      rw [firstUnmet_append, ← hfault]
      exact hrest.fault_eq
  | error fault =>
      refine ⟨?_, fun _ => nofun⟩
      rw [firstUnmet_append, ← hfault]
      rfl

/-- What comes after the last requirement asks for nothing. -/
theorem last {next : α → Except Fault β} (h : Follows asked good result)
    (hnext : ∀ value, good value → Follows [] final (next value)) :
    Follows asked final (result >>= next) := by
  have hbind := h.bind hnext
  rwa [List.append_nil] at hbind

theorem map {f : α → β} (h : Follows asked good result)
    (hf : ∀ value, good value → final (f value)) : Follows asked final (result.map f) := by
  have hfault := h.fault_eq
  cases result with
  | ok value => exact ⟨hfault, fun _ hok => Except.ok.inj hok ▸ hf value (h.of_ok value rfl)⟩
  | error fault => exact ⟨hfault, fun _ => nofun⟩

/-- The requirements of a list are those of its items, one after the other. -/
theorem mapM {one : β → Except Fault α} {items : List β}
    (h : ∀ item ∈ items, Follows (askedOf item) good (one item)) :
    Follows (items.flatMap askedOf) (fun values => ∀ value ∈ values, good value)
      (items.mapM one) := by
  induction items with
  | nil => exact .of_value fun value hmem => absurd hmem List.not_mem_nil
  | cons item rest ih =>
      rw [List.mapM_cons, List.flatMap_cons]
      refine (h item List.mem_cons_self).bind fun first hfirst => ?_
      have hrest := ih fun item hitem => h item (List.mem_cons_of_mem _ hitem)
      refine hrest.last fun values hvalues => ?_
      exact .of_value (List.forall_mem_cons.2 ⟨hfirst, hvalues⟩)

/-- **Refused exactly for the first requirement that is not met.** -/
theorem iff_met (h : Follows asked good result) :
    ((∃ value, result = .ok value) ↔ ∀ r ∈ asked, r.met = true) ∧
    ∀ fault, result = .error fault ↔ ∃ before r after, asked = before ++ r :: after ∧
      (∀ earlier ∈ before, earlier.met = true) ∧ r.met = false ∧ r.fault = fault := by
  constructor
  · rw [← firstUnmet_eq_none_iff, ← h.fault_eq]
    cases result <;> simp [fault?]
  · intro fault
    rw [← firstUnmet_eq_some_iff, ← h.fault_eq, fault?_eq_some_iff]

/-- What is refused has the kind of fault that the first requirement not met has. -/
theorem meets {kind : Fault → Prop} (h : Follows asked good result)
    (hkind : ∀ fault ∈ firstUnmet asked, kind fault) : Meets good kind result := by
  refine ⟨h.of_ok, fun fault hfault => hkind fault ?_⟩
  rw [← h.fault_eq]
  exact fault?_eq_some_iff.2 hfault

end Follows

/-! ## Readers of settings -/

namespace Setting

variable {setting name : String} {v : Json} {members : List (String × Json)}
  {askedOf : Json → List Requirement}

theorem follows_text : Follows [.form setting .text v] (fun s => s = v.word) (text setting v) := by
  cases v with
  | string s => exact ⟨rfl, fun _ hok => (Except.ok.inj hok).symm⟩
  | _ => exact ⟨rfl, fun _ => nofun⟩

theorem follows_integer :
    Follows [.form setting .integer v] (fun n => n = v.whole) (integer setting v) := by
  cases v with
  | integer n => exact ⟨rfl, fun _ hok => (Except.ok.inj hok).symm⟩
  | _ => exact ⟨rfl, fun _ => nofun⟩

theorem follows_object :
    Follows [.form setting .object v] (fun ms => ms = v.members) (object setting v) := by
  cases v with
  | object ms => exact ⟨rfl, fun _ hok => (Except.ok.inj hok).symm⟩
  | _ => exact ⟨rfl, fun _ => nofun⟩

theorem follows_boolean :
    Follows [.form setting .boolean v] (fun b => v = .boolean b) (boolean setting v) := by
  cases v with
  | boolean b => exact ⟨rfl, fun _ hok => congrArg Json.boolean (Except.ok.inj hok)⟩
  | _ => exact ⟨rfl, fun _ => nofun⟩

theorem number_integer (n : Int) : number setting (.integer n) =
    (Binary64.ofInt? n).elim (.error .integerTooLarge) .ok := rfl

theorem number_of_number? {x : Binary64} (h : v.number? = some x) : number setting v = .ok x := by
  cases v with
  | integer n =>
      have hn : Binary64.ofInt? n = some x := h
      rw [number_integer, hn]
      rfl
  | float y => exact congrArg Except.ok (Option.some.inj h)
  | _ => cases h

/-- A number is refused for its form first, an integer also for its range. -/
theorem follows_number :
    Follows (Requirement.number setting v) (fun x => v.number? = some x) (number setting v) := by
  cases v with
  | integer n =>
      show Follows [.form setting .number (.integer n),
        ⟨(Binary64.ofInt? n).isSome, .integerTooLarge⟩] (fun x => Binary64.ofInt? n = some x) _
      rw [number_integer]
      cases Binary64.ofInt? n with
      | none => exact ⟨rfl, fun _ => nofun⟩
      | some x => exact ⟨rfl, fun _ hok => congrArg some (Except.ok.inj hok)⟩
  | float x => exact ⟨rfl, fun _ hok => congrArg some (Except.ok.inj hok)⟩
  | _ => exact ⟨rfl, fun _ => nofun⟩

theorem follows_require {holds : Bool} {cause : SettingFault} :
    Follows [⟨holds, .setting cause⟩] (fun _ => holds = true) (require holds cause) := by
  cases holds with
  | true => exact ⟨rfl, fun _ _ => rfl⟩
  | false => exact ⟨rfl, fun _ => nofun⟩

theorem follows_positive :
    Follows (Requirement.positive setting v) (fun x => x.isPositive = true)
      (positive setting v) := by
  unfold positive Requirement.positive
  refine follows_number.bind fun x hx => ?_
  rw [hx]
  exact follows_require.last fun _ hpositive => .of_value hpositive

/-- A setting that is left open has nothing asked of it. -/
theorem follows_optional {one : Json → Except Fault α}
    (h : ∀ w, Follows (askedOf w) good (one w)) :
    Follows (Requirement.unlessNull askedOf (get members name .null))
      (fun result => ∀ x ∈ result, good x) (optional members name one) := by
  unfold optional Requirement.unlessNull
  cases get members name .null with
  | null => exact .of_value fun x hx => absurd hx (Option.not_mem_none x)
  | _ => exact (h _).map fun x hx y hy => Option.some.inj hy ▸ hx

theorem follows_symbol : Follows [.form setting .symbol v] Anything (symbol setting v) := by
  cases v with
  | string s =>
      have hform : (Json.string s).hasForm .symbol = (s.toList.length == 1) := by
        rw [String.length_toList]
        rfl
      unfold Requirement.form
      rw [hform]
      simp only [symbol]
      cases s.toList with
      | nil => exact ⟨rfl, fun _ => nofun⟩
      | cons c rest =>
          cases rest with
          | nil => exact ⟨rfl, fun _ _ => trivial⟩
          | cons d rest => exact ⟨rfl, fun _ => nofun⟩
  | _ => exact ⟨rfl, fun _ => nofun⟩

theorem follows_elements {one : String → Json → Except Fault α} {form : Form} {items : List Json}
    (h : ∀ place w, Follows [.form place form w] Anything (one place w)) :
    Follows (Requirement.elements setting form items) Anything (elements setting one items) := by
  have hitems : Follows (items.zipIdx.flatMap fun e => [.form (element setting e.2) form e.1])
      (fun values => ∀ value ∈ values, Anything value) (elements setting one items) :=
    .mapM fun _ _ => h _ _
  rw [← List.map_eq_flatMap] at hitems
  exact hitems.forget

theorem follows_symbols :
    Follows (Requirement.symbols setting v) Anything (symbols setting v) := by
  cases v with
  | string s => exact ⟨rfl, fun _ _ => trivial⟩
  | array items =>
      have hitems : Follows (Requirement.elements setting .symbol items) Anything
          (elements setting symbol items) := follows_elements fun _ _ => follows_symbol
      exact ⟨hitems.fault_eq, fun _ _ => trivial⟩
  | _ => exact ⟨rfl, fun _ => nofun⟩

/-- A rule that is read has the form that a grammar asks for. -/
theorem follows_rule (member : String × Json) :
    Follows (Requirement.rule member) (fun e => e.1.length = 1 ∧ e.2.isSome = true)
      (rule member) := by
  unfold rule
  refine follows_require.bind fun _ hname => ?_
  refine follows_text.last fun _ _ => .of_value ⟨?_, rfl⟩
  exact beq_iff_eq.1 hname

end Setting

/-! ## Grammars -/

namespace Table

variable {κ : Type} [DecidableEq κ] {entries : List (κ × α)} {e : κ × α}

theorem mem_of_mem_setEntry {key : κ} {value : α} (h : e ∈ setEntry key value entries) :
    e = (key, value) ∨ e ∈ entries := by
  induction entries with
  | nil => exact .inl (List.mem_singleton.1 h)
  | cons first rest ih =>
      rw [setEntry] at h
      split at h
      · exact (List.mem_cons.1 h).imp_right (List.mem_cons_of_mem _)
      · rcases List.mem_cons.1 h with hfirst | hrest
        · exact .inr (List.mem_cons.2 (.inl hfirst))
        · exact (ih hrest).imp_right (List.mem_cons_of_mem _)

/-- A table that was made from entries has no others. -/
theorem mem_of_mem_ofList (h : e ∈ (ofList entries).entries) : e ∈ entries := by
  have hfold : ∀ t : Table κ α, e ∈ (entries.foldl (fun t e => t.insert e.1 e.2) t).entries →
      e ∈ t.entries ∨ e ∈ entries := by
    clear h
    induction entries with
    | nil => exact fun t h => .inl h
    | cons first rest ih =>
        intro t h
        rcases ih _ h with hinsert | hrest
        · rcases mem_of_mem_setEntry hinsert with rfl | ht
          · exact .inr List.mem_cons_self
          · exact .inl ht
        · exact .inr (List.mem_cons_of_mem _ hrest)
  exact (hfold empty h).resolve_left List.not_mem_nil

end Table

namespace Rules

theorem follows_generations {count : Int} :
    Follows [⟨decide (1 ≤ count), .argument (.iterations count)⟩] (fun n => 1 ≤ n)
      (generations? count) := by
  unfold generations?
  by_cases h : 1 ≤ count
  · rw [decide_eq_true h, if_pos h]
    exact ⟨rfl, fun n hok => by cases hok; omega⟩
  · rw [decide_eq_false h, if_neg h]
    exact ⟨rfl, fun _ => nofun⟩

theorem follows_named {e : String × Option String} (h : e.1.length = 1 ∧ e.2.isSome = true) :
    Follows [] Anything (named? e) := by
  obtain ⟨name, text⟩ := e
  obtain ⟨text, rfl⟩ := Option.isSome_iff_exists.1 h.2
  obtain ⟨symbol, hsymbol⟩ := List.length_eq_one_iff.1 (String.length_toList.trans h.1)
  simp only [named?, hsymbol]
  exact .of_value trivial

end Rules

/-- The word and the names of the rules were asked for before, so that only the count is left. -/
theorem Grammar.follows_build {start : String} {named : Table String (Option String)} {count : Int}
    (hstart : start.isEmpty = false)
    (hnamed : ∀ e ∈ named.entries, e.1.length = 1 ∧ e.2.isSome = true) :
    Follows [⟨decide (1 ≤ count), .argument (.iterations count)⟩] Anything
      (build (some start) named count) := by
  have hword : Follows [] Anything (start? (some start)) := by
    have hne : start.toList ≠ [] := by
      rintro hnil
      rw [String.toList_eq_nil_iff.1 hnil] at hstart
      cases hstart
    simp only [start?, dif_pos hne]
    exact .of_value trivial
  have hrules : Follows [] Anything (Rules.ofNamed? named) := by
    have hentries := Follows.mapM fun e he => Rules.follows_named (hnamed e he)
    rw [List.flatMap_eq_nil_iff.2 fun _ _ => rfl] at hentries
    exact hentries.map fun _ _ => trivial
  unfold build
  refine hword.bind fun word _ => Rules.follows_generations.last fun n hn => ?_
  refine hrules.last fun rules _ => ?_
  rw [dif_pos hn]
  exact .of_value trivial

/-! ## Configurations -/

namespace Config

open Setting Requirement

/-- What is asked of the settings of the grammar. -/
def grammarRequirements (root : List (String × Json)) : List Requirement :=
  let start := get root "axiom" (.string "")
  let iterations := get root "iterations" (.integer 1)
  let rules := get root "rules" (.object [])
  List.flatten
    [[form "axiom" .text start],
      [⟨!start.word.isEmpty, .setting .emptyWord⟩],
      [form "iterations" .integer iterations],
      [form "rules" .object rules],
      rules.members.flatMap Requirement.rule,
      [⟨decide (1 ≤ iterations.whole), .argument (.iterations iterations.whole)⟩]]

/-- What is asked of the number of decimal places. -/
def placesRequirements (svg : List (String × Json)) : List Requirement :=
  let places := get svg "precision" (.integer 3)
  List.flatten
    [[form "svg.precision" .integer places],
      [⟨0 ≤ places.whole && places.whole ≤ maxPlaces, .setting .places⟩]]

/-- What is asked of the look of the lines. -/
def styleRequirements (svg : List (String × Json)) : List Requirement :=
  let style := (get svg "style" (.object [])).members
  let palette := get style "palette" (.array [])
  List.flatten
    [[form "svg.style" .object (get svg "style" (.object []))],
      [form "svg.style.palette" .list palette],
      [form "svg.style.stroke" .text (get style "stroke" (.string Style.standard.stroke))],
      Requirement.number "svg.style.stroke_width"
        (get style "stroke_width" (.float Style.standard.strokeWidth)),
      [form "svg.style.stroke_linecap" .text
        (get style "stroke_linecap" (.string Style.standard.lineCap))],
      Requirement.elements "svg.style.palette" .text palette.items]

/-- **The schema.** What is asked of a value that describes a configuration, in the order in which
    it is asked; what is absent has its default. -/
def requirements (value : Json) : List Requirement :=
  let root := value.members
  let turtle := (get root "turtle" (.object [])).members
  let output := (get root "output" (.object [])).members
  let svg := (get root "svg" (.object [])).members
  List.flatten
    [[form "root" .object value],
      [form "name" .text (get root "name" (.string "L-System"))],
      grammarRequirements root,
      [form "turtle" .object (get root "turtle" (.object []))],
      [⟨(Json.member? "angle" turtle).isSome, .setting .angleAbsent⟩],
      Requirement.number "turtle.angle" (get turtle "angle" .null),
      Requirement.number "turtle.heading" (get turtle "heading" (.integer 90)),
      Requirement.positive "turtle.step" (get turtle "step" (.integer 1)),
      Requirement.symbols "turtle.draw_aliases" (get turtle "draw_aliases" (.string "")),
      [form "output" .object (get root "output" (.object []))],
      [form "output.extra_info" .boolean (get output "extra_info" (.boolean false))],
      [form "output.remove_duplicates" .boolean (get output "remove_duplicates" (.boolean true))],
      [form "svg" .object (get root "svg" (.object []))],
      Requirement.number "svg.margin" (get svg "margin" (.integer 1)),
      placesRequirements svg,
      [form "svg.flip_y" .boolean (get svg "flip_y" (.boolean true))],
      unlessNull (Requirement.positive "svg.width") (get svg "width" .null),
      unlessNull (Requirement.positive "svg.height") (get svg "height" .null),
      styleRequirements svg,
      unlessNull (fun w => [form "svg.background" .text w]) (get svg "background" .null)]

/-- What a grammar asks of its word and its rules was asked of the settings before; only the count of
    iterations is left. -/
theorem follows_readGrammar (root : List (String × Json)) :
    Follows (grammarRequirements root) Anything (readGrammar root) := by
  unfold readGrammar grammarRequirements
  simp only [List.flatten_cons, List.flatten_nil]
  refine follows_text.bind fun start hstart => ?_
  subst hstart
  refine follows_require.bind fun _ hword => follows_integer.bind fun count hcount => ?_
  subst hcount
  refine follows_object.bind fun members hmembers => ?_
  subst hmembers
  refine (Follows.mapM fun m _ => follows_rule m).bind fun rules hrules => ?_
  refine Grammar.follows_build (Bool.not_eq_true' _ ▸ hword) fun e he => ?_
  exact hrules e (Table.mem_of_mem_ofList he)

theorem follows_readPlaces (svg : List (String × Json)) :
    Follows (placesRequirements svg) (fun places => places ≤ maxPlaces) (readPlaces svg) := by
  unfold readPlaces placesRequirements
  simp only [List.flatten_cons, List.flatten_nil]
  refine follows_integer.bind fun places hplaces => ?_
  subst hplaces
  refine follows_require.bind fun _ hrange => .of_value ?_
  exact Int.toNat_le.2 (of_decide_eq_true ((Bool.and_eq_true _ _).mp hrange).2)

/-- The form of the palette is asked for before the other settings, its colours after them. -/
theorem follows_readStyle (svg : List (String × Json)) :
    Follows (styleRequirements svg) Anything (readStyle svg) := by
  unfold readStyle styleRequirements
  simp only [List.flatten_cons, List.flatten_nil]
  refine follows_object.bind fun style hstyle => ?_
  subst hstyle
  generalize (get svg "style" (.object [])).members = style
  cases get style "palette" (.array []) with
  | array colours =>
      refine .of_met rfl ?_
      refine follows_text.bind fun stroke _ => follows_number.bind fun width _ => ?_
      refine follows_text.bind fun lineCap _ => ?_
      exact (follows_elements fun _ _ => follows_text.forget).bind fun _ _ => .of_value trivial
  | _ => exact ⟨rfl, fun _ => nofun⟩

/-- The conditions that a configuration was read under. -/
structure Valid (c : Config) : Prop where
  step_pos : c.step.isPositive = true
  places_le : c.places ≤ maxPlaces
  width_pos : ∀ x ∈ c.width, x.isPositive = true
  height_pos : ∀ x ∈ c.height, x.isPositive = true

/-- **Reading a configuration.** It is refused for the first requirement of the schema that is not
    met, and what is accepted meets the conditions of a configuration. -/
theorem follows_ofJson (value : Json) : Follows (requirements value) Valid (ofJson value) := by
  unfold ofJson requirements
  simp only [List.flatten_cons, List.flatten_nil]
  refine follows_object.bind fun root hroot => ?_
  subst hroot
  refine follows_text.bind fun name _ => (follows_readGrammar _).bind fun grammar _ => ?_
  refine follows_object.bind fun turtle hturtle => ?_
  subst hturtle
  refine follows_require.bind fun _ _ => ?_
  refine follows_number.bind fun angle _ => follows_number.bind fun heading _ => ?_
  refine follows_positive.bind fun step hstep => follows_symbols.bind fun aliases _ => ?_
  refine follows_object.bind fun output houtput => ?_
  subst houtput
  refine follows_boolean.bind fun annotate _ => follows_boolean.bind fun distinct _ => ?_
  refine follows_object.bind fun svg hsvg => ?_
  subst hsvg
  refine follows_number.bind fun margin _ => ?_
  refine (follows_readPlaces _).bind fun places hplaces => follows_boolean.bind fun flip _ => ?_
  refine (follows_optional fun _ => follows_positive).bind fun width hwidth => ?_
  refine (follows_optional fun _ => follows_positive).bind fun height hheight => ?_
  refine (follows_readStyle _).bind fun style _ => ?_
  refine (follows_optional fun _ => follows_text.forget).bind fun background _ => ?_
  exact .of_value ⟨hstep, hplaces, hwidth, hheight⟩

theorem valid_of_ofJson {value : Json} {c : Config} (h : ofJson value = .ok c) : c.Valid :=
  (follows_ofJson value).of_ok c h

/-- **A configuration is read exactly if it follows its schema.** Reading gives a configuration if
    and only if every requirement of the schema is met, and otherwise refuses with the fault of the
    first one that is not. -/
theorem ofJson_firstUnmet (value : Json) :
    ((∃ c, ofJson value = .ok c) ↔ ∀ r ∈ requirements value, r.met = true) ∧
    ∀ fault, ofJson value = .error fault ↔
      ∃ before r after, requirements value = before ++ r :: after ∧
        (∀ earlier ∈ before, earlier.met = true) ∧ r.met = false ∧ r.fault = fault :=
  (follows_ofJson value).iff_met

/-- The names of the rules are asked for before the count of iterations. -/
example : firstUnmet (requirements (.object [("axiom", .string "F"), ("iterations", .integer 0),
    ("rules", .object [("FG", .string "F")])])) = some (.setting .ruleName) := by
  rfl

end Config

end TurtleGrammar
