import TurtleGrammar.Proofs.Requirement

/-!
# `TurtleGrammar.Proofs.Schema` — what a value is refused for

A value that is no configuration does not follow the schema or has a grammar that cannot be built;
the only other fault is an integer that is past the largest number, and it stands somewhere in the
value itself, for every default is in range. All of this is read off the requirements: which of them
can be the first one that is not met.

## Contents
- `Json.Inside`, `Json.IntegersFit`: the integers in a value.
- `SchemaFault`, `Refused`: the faults of requirements.
- `Config.refused_requirements`, `Config.meets_ofJson`: what a value is refused for.
-/

namespace TurtleGrammar

/-! ## Integers in a value -/

namespace Json

/-- Is a value the other one, or inside it as an item or a member? -/
inductive Inside (v : Json) : Json → Prop where
  | self : Inside v v
  | item {items : List Json} {w : Json} (hmem : w ∈ items) (h : Inside v w) :
      Inside v (.array items)
  | member {members : List (String × Json)} {m : String × Json} (hmem : m ∈ members)
      (h : Inside v m.2) : Inside v (.object members)

/-- Is every integer in a value in the range of numbers? -/
def IntegersFit (v : Json) : Prop := ∀ n, Inside (.integer n) v → (Binary64.ofInt? n).isSome = true

theorem integersFit_integer {n : Int} (h : (Binary64.ofInt? n).isSome = true) :
    (integer n).IntegersFit := by
  intro m hm
  cases hm
  exact h

theorem integersFit_null : null.IntegersFit := fun _ h => nomatch h

theorem integersFit_float (x : Binary64) : (float x).IntegersFit := fun _ h => nomatch h

theorem integersFit_nil : (object []).IntegersFit := by
  intro n h
  cases h with
  | member hmem => cases hmem

/-- The integers of the members of a value are integers of the value. -/
theorem IntegersFit.members {v : Json} (h : v.IntegersFit) : ∀ m ∈ v.members, m.2.IntegersFit := by
  cases v with
  | object members => exact fun _ hmem n hn => h n (.member hmem hn)
  | _ => exact fun _ hmem => absurd hmem List.not_mem_nil

end Json

namespace Setting

variable {fit : Prop} {members : List (String × Json)} {name : String} {default : Json}

/-- What holds of every member and of the default holds of a setting. -/
theorem get_of_forall {Holds : Json → Prop} (hmembers : ∀ m ∈ members, Holds m.2)
    (hdefault : Holds default) : Holds (get members name default) := by
  unfold get Json.member?
  cases h : members.lookup name with
  | none => exact hdefault
  | some value =>
      obtain ⟨before, later, rfl, _⟩ := List.lookup_eq_some_iff.1 h
      exact hmembers (name, value) (List.mem_append_right _ List.mem_cons_self)

/-- A setting of members whose integers are in range has its integers in range. -/
theorem integersFit_get (hmembers : fit → ∀ m ∈ members, m.2.IntegersFit)
    (hdefault : default.IntegersFit) : fit → (get members name default).IntegersFit :=
  fun hfit => get_of_forall (hmembers hfit) hdefault

/-- The same for the members of a setting that is an object. -/
theorem integersFit_members (name : String) (hmembers : fit → ∀ m ∈ members, m.2.IntegersFit) :
    fit → ∀ m ∈ (get members name (.object [])).members, m.2.IntegersFit :=
  fun hfit => (integersFit_get hmembers Json.integersFit_nil hfit).members

end Setting

/-! ## Faults of requirements -/

/-- The faults of reading a configuration; `fit` says that every integer in it is in range. -/
inductive SchemaFault (fit : Prop) : Fault → Prop where
  | setting (cause : SettingFault) : SchemaFault fit (.setting cause)
  | argument (cause : ArgumentFault) : SchemaFault fit (.argument cause)
  | integerTooLarge (h : ¬ fit) : SchemaFault fit .integerTooLarge

/-- Is the first of these requirements that is not met refused for a fault of reading? -/
def Refused (fit : Prop) (asked : List Requirement) : Prop :=
  ∀ fault ∈ firstUnmet asked, SchemaFault fit fault

namespace Refused

variable {fit : Prop} {asked first later : List Requirement} {setting : String} {v : Json}
  {met : Bool}

theorem nil : Refused fit [] := nofun

/-- It is enough that every requirement has such a fault. -/
theorem of_forall (h : ∀ r ∈ asked, r.met = false → SchemaFault fit r.fault) :
    Refused fit asked := by
  intro fault hfault
  obtain ⟨before, r, after, rfl, _, hr, rfl⟩ := firstUnmet_eq_some_iff.1 hfault
  exact h r (List.mem_append_right _ List.mem_cons_self) hr

/-- The first requirement that is not met is in the first list or in the second one. -/
theorem append (hfirst : Refused fit first) (hlater : Refused fit later) :
    Refused fit (first ++ later) := by
  intro fault hfault
  rw [firstUnmet_append, Option.mem_def, Option.or_eq_some_iff] at hfault
  rcases hfault with h | ⟨_, h⟩
  · exact hfirst fault h
  · exact hlater fault h

theorem flatten {lists : List (List Requirement)} (h : ∀ asked ∈ lists, Refused fit asked) :
    Refused fit lists.flatten := by
  induction lists with
  | nil => exact nil
  | cons asked rest ih =>
      obtain ⟨hasked, hrest⟩ := List.forall_mem_cons.1 h
      exact hasked.append (ih hrest)

/-! One lemma for each kind of requirement. -/

theorem ofSetting {cause : SettingFault} : Refused fit [⟨met, .setting cause⟩] :=
  of_forall (List.forall_mem_singleton.2 fun _ => .setting cause)

theorem ofArgument {cause : ArgumentFault} : Refused fit [⟨met, .argument cause⟩] :=
  of_forall (List.forall_mem_singleton.2 fun _ => .argument cause)

/-- A value that is no number is refused for its form, before its range is asked for. -/
theorem number (h : fit → v.IntegersFit) : Refused fit (Requirement.number setting v) := by
  cases v with
  | integer n =>
      refine of_forall (List.forall_mem_cons.2 ⟨fun _ => .setting _, ?_⟩)
      refine List.forall_mem_singleton.2 fun hunmet => .integerTooLarge fun hfit => ?_
      exact Bool.false_ne_true (hunmet.symm.trans (h hfit n .self))
  | float x =>
      refine of_forall (List.forall_mem_cons.2 ⟨fun _ => .setting _, ?_⟩)
      exact List.forall_mem_singleton.2 nofun
  | _ =>
      intro fault hfault
      cases hfault
      exact .setting _

theorem positive (h : fit → v.IntegersFit) : Refused fit (Requirement.positive setting v) :=
  (number h).append ofSetting

theorem unlessNull {askedOf : Json → List Requirement} (h : Refused fit (askedOf v)) :
    Refused fit (Requirement.unlessNull askedOf v) := by
  cases v with
  | null => exact nil
  | _ => exact h

/-- Elements are asked for their form only. -/
theorem elements {form : Form} {items : List Json} :
    Refused fit (Requirement.elements setting form items) := by
  refine of_forall fun r hr _ => ?_
  obtain ⟨e, _, rfl⟩ := List.mem_map.1 hr
  exact .setting _

theorem symbols : Refused fit (Requirement.symbols setting v) :=
  ofSetting.append elements

theorem rule (m : String × Json) : Refused fit (Requirement.rule m) :=
  ofSetting.append ofSetting

end Refused

/-! ## Configurations -/

namespace Config

open Setting Refused

variable {fit : Prop} {root svg : List (String × Json)}

/-- Only the count of iterations is asked for by the grammar itself. -/
theorem refused_grammarRequirements : Refused fit (grammarRequirements root) := by
  have hrules : Refused fit ((get root "rules" (.object [])).members.flatMap Requirement.rule) := by
    rw [List.flatMap_def]
    refine .flatten fun asked hasked => ?_
    obtain ⟨m, _, rfl⟩ := List.mem_map.1 hasked
    exact .rule m
  refine .flatten ?_
  simp only [List.forall_mem_cons, List.not_mem_nil, false_implies, implies_true, and_true]
  exact ⟨ofSetting, ofSetting, ofSetting, ofSetting, hrules, ofArgument⟩

theorem refused_placesRequirements : Refused fit (placesRequirements svg) :=
  .flatten (List.forall_mem_cons.2 ⟨ofSetting, List.forall_mem_singleton.2 ofSetting⟩)

theorem refused_styleRequirements (h : fit → ∀ m ∈ svg, m.2.IntegersFit) :
    Refused fit (styleRequirements svg) := by
  have hwidth : fit → (get (get svg "style" (.object [])).members "stroke_width"
      (.float Style.standard.strokeWidth)).IntegersFit :=
    integersFit_get (integersFit_members _ h) (Json.integersFit_float _)
  refine .flatten ?_
  simp only [List.forall_mem_cons, List.not_mem_nil, false_implies, implies_true, and_true]
  exact ⟨ofSetting, ofSetting, ofSetting, .number hwidth, ofSetting, .elements⟩

/-- **Faults of the schema.** What a value is refused for is a setting that does not follow the
    schema, a grammar that cannot be built, or an integer in the value that is out of range. -/
theorem refused_requirements (value : Json) :
    Refused value.IntegersFit (requirements value) := by
  -- the defaults that are whole numbers are in range, so that only the value itself can be at fault
  have hninety : (Json.integer 90).IntegersFit := Json.integersFit_integer (by decide +kernel)
  have hone : (Json.integer 1).IntegersFit := Json.integersFit_integer (by decide +kernel)
  have hroot : value.IntegersFit → ∀ m ∈ value.members, m.2.IntegersFit := Json.IntegersFit.members
  have hturtle := integersFit_members "turtle" hroot
  have hsvg := integersFit_members "svg" hroot
  refine .flatten ?_
  simp only [List.forall_mem_cons, List.not_mem_nil, false_implies, implies_true, and_true]
  exact ⟨ofSetting, ofSetting, refused_grammarRequirements, ofSetting, ofSetting,
    .number (integersFit_get hturtle Json.integersFit_null),
    .number (integersFit_get hturtle hninety), .positive (integersFit_get hturtle hone), .symbols,
    ofSetting, ofSetting, ofSetting, ofSetting, .number (integersFit_get hsvg hone),
    refused_placesRequirements, ofSetting,
    .unlessNull (.positive (integersFit_get hsvg Json.integersFit_null)),
    .unlessNull (.positive (integersFit_get hsvg Json.integersFit_null)),
    refused_styleRequirements hsvg, .unlessNull ofSetting⟩

/-- **Reading a configuration.** What is accepted meets the conditions of a configuration. What is
    refused does not follow the schema or has no grammar, or an integer in it is out of range. -/
theorem meets_ofJson (value : Json) :
    Meets Valid (SchemaFault value.IntegersFit) (ofJson value) :=
  (follows_ofJson value).meets (refused_requirements value)

end Config

end TurtleGrammar
