import TurtleGrammar.Proofs.Documented
import TurtleGrammar.Proofs.Rebuild
import TurtleGrammar.Proofs.Schema

/-!
# `TurtleGrammar.Proofs.NormalForm` — configurations written out in full

A configuration can be written out with every documented setting: numbers as they are, aliases as a
list of symbols, rules in their order, and `null` for what is left open. What is written is read
again. No check can fail the second time: the conditions a configuration was read under hold of its
values (`Config.Valid`), and the grammar carries its own.

## Contents
- `Config.toJson`: the normal form; `Config.members_keys`: every documented setting is in it.
- `Config.ofJson_toJson`: the normal form is read again.
- `Config.reading_stable`: reading is stable on the normal form, and blind to what says nothing.
-/

namespace TurtleGrammar

namespace Config

/-! ## The normal form -/

/-- A setting that may be left open. -/
def openJson {α : Type} (write : α → Json) : Option α → Json
  | none => .null
  | some x => write x

/-- The rules of a grammar by their names, in their order. -/
def ruleMembers (g : Grammar) : List (String × Json) :=
  g.rules.entries.map fun e => (String.singleton e.1, .string (String.ofList e.2))

def turtleMembers (c : Config) : List (String × Json) :=
  [("angle", .float c.angle), ("heading", .float c.heading), ("step", .float c.step),
    ("draw_aliases", .array (c.aliases.map fun a => .string (String.singleton a)))]

def outputMembers (c : Config) : List (String × Json) :=
  [("extra_info", .boolean c.annotate), ("remove_duplicates", .boolean c.distinct)]

def styleMembers (c : Config) : List (String × Json) :=
  [("stroke", .string c.style.stroke), ("stroke_width", .float c.style.strokeWidth),
    ("stroke_linecap", .string c.style.lineCap), ("palette", .array (c.style.palette.map .string))]

def svgMembers (c : Config) : List (String × Json) :=
  [("margin", .float c.margin), ("precision", .integer c.places), ("flip_y", .boolean c.flip),
    ("width", openJson .float c.width), ("height", openJson .float c.height),
    ("background", openJson .string c.background), ("style", .object c.styleMembers)]

def rootMembers (c : Config) : List (String × Json) :=
  [("name", .string c.name), ("axiom", .string (String.ofList c.grammar.start)),
    ("iterations", .integer c.grammar.iterations), ("rules", .object (ruleMembers c.grammar)),
    ("turtle", .object c.turtleMembers), ("output", .object c.outputMembers),
    ("svg", .object c.svgMembers)]

/-- **The normal form.** A configuration with every setting written out. -/
def toJson (c : Config) : Json := .object c.rootMembers

/-- The members of the objects of a normal form. -/
def members (c : Config) : Section → List (String × Json)
  | .root => c.rootMembers
  | .turtle => c.turtleMembers
  | .output => c.outputMembers
  | .svg => c.svgMembers
  | .style => c.styleMembers

/-- Every documented setting is in the normal form, and nothing else. -/
theorem members_keys (c : Config) (s : Section) :
    (c.members s).map Prod.fst = (Field.all.filter fun f => f.home = s).map Field.key := by
  cases s <;> rfl

end Config

/-! ## Readers of what was written -/

theorem bind_of_ok {α β : Type} {first : Except Fault α} {next : α → Except Fault β} {value : α}
    {result : Except Fault β} (hfirst : first = .ok value) (hnext : next value = result) :
    (first >>= next) = result := by
  rw [hfirst]
  exact hnext

namespace Setting

variable {α : Type} {setting name : String} {members : List (String × Json)}

theorem require_of_holds {holds : Bool} {cause : SettingFault} (h : holds = true) :
    require holds cause = .ok () :=
  if_pos h

theorem positive_float {x : Binary64} (h : x.isPositive = true) :
    positive setting (.float x) = .ok x := by
  unfold positive
  exact bind_of_ok rfl (bind_of_ok (require_of_holds h) rfl)

theorem optional_openJson {write : α → Json} {one : Json → Except Fault α} {value : Option α}
    (hget : get members name .null = Config.openJson write value) (hnull : ∀ x, write x ≠ .null)
    (hone : ∀ x ∈ value, one (write x) = .ok x) : optional members name one = .ok value := by
  unfold Setting.optional
  rw [hget]
  cases value with
  | none => rfl
  | some x =>
      have hread : one (write x) = .ok x := hone x rfl
      simp only [Config.openJson]
      split
      · exact absurd ‹_› (hnull x)
      · rw [hread]
        rfl

/-- Elements are read one by one as they were written, wherever they stand. -/
theorem elements_map {one : String → Json → Except Fault α} {write : α → Json}
    (hone : ∀ place x, one place (write x) = .ok x) (values : List α) :
    elements setting one (values.map write) = .ok values := by
  have hread : (values.zipIdx.map fun e => (write e.1, e.2)).mapM
      (fun e => one (element setting e.2) e.1) = .ok (values.zipIdx.map Prod.fst) :=
    mapM_map_of_ok (fun e => hone (element setting e.2) e.1) values.zipIdx
  unfold elements
  rw [List.zipIdx_map]
  exact hread.trans (congrArg Except.ok (List.zipIdx_map_fst 0 values))

theorem text_string (place s : String) : text place (.string s) = .ok s := rfl

theorem symbol_singleton (place : String) (a : Char) :
    symbol place (.string (String.singleton a)) = .ok a := by
  simp only [symbol, String.toList_singleton]

/-- A rule is read as the named replacement that it was written from. -/
theorem rule_singleton (e : Char × Word) :
    rule (String.singleton e.1, .string (String.ofList e.2)) =
      .ok (String.singleton e.1, some (String.ofList e.2)) := by
  have hlength : ((String.singleton e.1).length == 1) = true := by
    rw [← String.length_toList, String.toList_singleton]
    rfl
  exact bind_of_ok (require_of_holds hlength) rfl

end Setting

/-! ## Reading the normal form -/

namespace Config

open Setting

theorem mapM_rule (g : Grammar) : (ruleMembers g).mapM rule = .ok g.named.entries :=
  mapM_map_of_ok rule_singleton g.rules.entries

theorem readGrammar_rootMembers (c : Config) : readGrammar c.rootMembers = .ok c.grammar := by
  have hword : (!(String.ofList c.grammar.start).isEmpty) = true := by
    have hne : String.ofList c.grammar.start ≠ "" := fun hempty =>
      c.grammar.start_ne_nil (String.ofList_eq_empty_iff.1 hempty)
    simpa using hne
  unfold readGrammar
  refine bind_of_ok rfl (bind_of_ok (require_of_holds hword) (bind_of_ok rfl ?_))
  refine bind_of_ok rfl (bind_of_ok (mapM_rule c.grammar) ?_)
  rw [Table.ofList_entries]
  exact c.grammar.build_parts

theorem readPlaces_svgMembers (c : Config) (h : c.places ≤ maxPlaces) :
    readPlaces c.svgMembers = .ok c.places := by
  have hplaces : (0 ≤ (c.places : Int) && (c.places : Int) ≤ maxPlaces) = true := by
    rw [Bool.and_eq_true, decide_eq_true_iff, decide_eq_true_iff]
    exact ⟨Int.natCast_nonneg _, Int.ofNat_le.2 h⟩
  unfold readPlaces
  exact bind_of_ok rfl (bind_of_ok (require_of_holds hplaces) rfl)

theorem readStyle_svgMembers (c : Config) : readStyle c.svgMembers = .ok c.style := by
  unfold readStyle
  refine bind_of_ok rfl ?_
  have hpalette : get c.styleMembers "palette" (.array []) =
      .array (c.style.palette.map .string) := rfl
  have hcolours : elements "svg.style.palette" text (c.style.palette.map .string) =
      .ok c.style.palette := elements_map text_string _
  rw [hpalette]
  exact bind_of_ok rfl (bind_of_ok rfl (bind_of_ok rfl (bind_of_ok hcolours rfl)))

/-- **The normal form is read again.** -/
theorem ofJson_toJson {c : Config} (h : c.Valid) : ofJson c.toJson = .ok c := by
  unfold ofJson
  refine bind_of_ok rfl (bind_of_ok rfl (bind_of_ok c.readGrammar_rootMembers ?_))
  -- the turtle
  refine bind_of_ok rfl (bind_of_ok rfl (bind_of_ok rfl (bind_of_ok rfl ?_)))
  refine bind_of_ok (positive_float h.step_pos) ?_
  refine bind_of_ok (elements_map symbol_singleton c.aliases) ?_
  -- the output
  refine bind_of_ok rfl (bind_of_ok rfl (bind_of_ok rfl ?_))
  -- the page
  refine bind_of_ok rfl (bind_of_ok rfl (bind_of_ok (c.readPlaces_svgMembers h.places_le) ?_))
  refine bind_of_ok rfl ?_
  refine bind_of_ok (optional_openJson rfl (fun _ => nofun) fun x hx => ?_) ?_
  · exact positive_float (h.width_pos x hx)
  refine bind_of_ok (optional_openJson rfl (fun _ => nofun) fun x hx => ?_) ?_
  · exact positive_float (h.height_pos x hx)
  refine bind_of_ok c.readStyle_svgMembers ?_
  exact bind_of_ok (optional_openJson rfl (fun _ => nofun) fun _ _ => rfl) rfl

/-- **Reading is stable.** An accepted configuration is read again from its normal form. Members
    that the documentation does not name, and settings that are written out with the value they
    would have anyway, change neither what is accepted nor what it is refused for. -/
theorem reading_stable :
    (∀ value c, ofJson value = .ok c → ofJson c.toJson = .ok c) ∧
    ∀ v w, Relation.EqvGen (Pads .root) v w → ofJson v = ofJson w :=
  ⟨fun _ _ h => ofJson_toJson (valid_of_ofJson h), fun _ _ h => ofJson_eqvGen h⟩

/-- A configuration that leaves most of its settings out. -/
def sparseValue : Json :=
  .object [("axiom", .string "F"), ("turtle", .object [("angle", .integer 60)])]

/-- The same with a note, and with a heading and empty settings of the output written out. -/
def paddedValue : Json :=
  .object
    [("axiom", .string "F"), ("turtle", .object [("heading", .float 90), ("angle", .integer 60)]),
      ("output", .object []), ("note", .array [.null])]

theorem eqvGen_paddedValue : Relation.EqvGen (Pads .root) sparseValue paddedValue := by
  have hheading : Pads .turtle (.object [("angle", .integer 60)])
      (.object [("heading", .float 90), ("angle", .integer 60)]) :=
    @Pads.default [] [("angle", .integer 60)] (.float 90) .heading rfl rfl
  have hturtle := @Pads.inside .turtle [("axiom", .string "F")] [] _ _ .turtle rfl hheading
  have houtput := @Pads.default
    [("axiom", .string "F"), ("turtle", .object [("heading", .float 90), ("angle", .integer 60)])]
    [] (.object []) .output rfl rfl
  have hnote := @Pads.unnamed .root
    [("axiom", .string "F"), ("turtle", .object [("heading", .float 90), ("angle", .integer 60)]),
      ("output", .object [])] [] "note" (.array [.null]) fun f _ => by cases f <;> decide
  exact .trans _ _ _ (.rel _ _ hturtle) (.trans _ _ _ (.rel _ _ houtput) (.rel _ _ hnote))

/-- What is left out of a configuration has its default, however it is written out. -/
theorem reading_stable_sparse :
    ∃ c, ofJson sparseValue = .ok c ∧ ofJson c.toJson = .ok c ∧ ofJson paddedValue = .ok c := by
  have haccepted : (ofJson sparseValue).toOption.isSome = true := by decide +kernel
  cases hread : ofJson sparseValue with
  | error fault =>
      rw [hread] at haccepted
      cases haccepted
  | ok c =>
      refine ⟨c, rfl, reading_stable.1 sparseValue c hread, ?_⟩
      exact (reading_stable.2 sparseValue paddedValue eqvGen_paddedValue).symm.trans hread

end Config

end TurtleGrammar
