import Mathlib.Logic.Relation
import TurtleGrammar.Proofs.Requirement

/-!
# `TurtleGrammar.Proofs.Documented` — the documented settings, and nothing else, are read

The settings of a configuration are listed with the object they belong to, the object they are, and
the value they have when they are absent. Two configurations that differ in members the list does
not name, or in settings that are written out with the value they would have anyway, are read alike,
whether they are accepted or refused.

A number may be written out as an integer or not, and no aliases as an empty text or an empty list;
so it is not the members that agree but what is read from them.

## Contents
- `Section`, `Field`: the objects of a configuration, and its settings.
- `Pads`: one more member that says nothing new.
- `Alike`: members from which the settings of an object are read alike.
- `Config.ofJson_pads`, `Config.ofJson_eqvGen`: configurations that are read alike.
-/

namespace TurtleGrammar

/-! ## Settings -/

/-- The objects of a configuration. -/
inductive Section where
  | root
  | turtle
  | output
  | svg
  | style
  deriving DecidableEq

/-- The settings of a configuration. -/
inductive Field where
  | name
  | start
  | iterations
  | rules
  | turtle
  | output
  | svg
  | angle
  | heading
  | step
  | aliases
  | annotate
  | distinct
  | margin
  | places
  | flip
  | width
  | height
  | background
  | style
  | stroke
  | strokeWidth
  | lineCap
  | palette
  deriving DecidableEq

namespace Field

/-- The name of a setting in its object. -/
def key : Field → String
  | name => "name"
  | start => "axiom"
  | iterations => "iterations"
  | rules => "rules"
  | turtle => "turtle"
  | output => "output"
  | svg => "svg"
  | angle => "angle"
  | heading => "heading"
  | step => "step"
  | aliases => "draw_aliases"
  | annotate => "extra_info"
  | distinct => "remove_duplicates"
  | margin => "margin"
  | places => "precision"
  | flip => "flip_y"
  | width => "width"
  | height => "height"
  | background => "background"
  | style => "style"
  | stroke => "stroke"
  | strokeWidth => "stroke_width"
  | lineCap => "stroke_linecap"
  | palette => "palette"

/-- The object that a setting is in. -/
def home : Field → Section
  | name | start | iterations | rules | turtle | output | svg => .root
  | angle | heading | step | aliases => .turtle
  | annotate | distinct => .output
  | margin | places | flip | width | height | background | style => .svg
  | stroke | strokeWidth | lineCap | palette => .style

/-- The object that a setting is. -/
def inner? : Field → Option Section
  | turtle => some .turtle
  | output => some .output
  | svg => some .svg
  | style => some .style
  | _ => none

/-- Is the value one that says the same as leaving the setting out? -/
def IsDefault : Field → Json → Prop
  | name, v => v = .string "L-System"
  | start, v => v = .string ""
  | iterations, v => v = .integer 1
  | rules, v | turtle, v | output, v | svg, v | style, v => v = .object []
  | angle, _ => False
  | heading, v => v.number? = some 90
  | step, v | margin, v => v.number? = some 1
  | aliases, v => v = .string "" ∨ v = .array []
  | annotate, v => v = .boolean false
  | distinct, v | flip, v => v = .boolean true
  | places, v => v = .integer 3
  | width, v | height, v | background, v => v = .null
  | stroke, v => v = .string "#000"
  | strokeWidth, v => v.number? = some 1
  | lineCap, v => v = .string "round"
  | palette, v => v = .array []

/-- All settings. -/
def all : List Field :=
  [name, start, iterations, rules, turtle, output, svg, angle, heading, step, aliases, annotate,
    distinct, margin, places, flip, width, height, background, style, stroke, strokeWidth, lineCap,
    palette]

theorem mem_all (f : Field) : f ∈ all := by
  cases f <;> decide

theorem key_injective {f g : Field} (h : f.key = g.key) : f = g := by
  have hall : ∀ f ∈ all, ∀ g ∈ all, f.key = g.key → f = g := by decide +kernel
  exact hall f (mem_all f) g (mem_all g) h

end Field

/-- **One more member that says nothing new.** An object has a member whose name is no setting of
    it, or a setting with the value it would have anyway, or such a member inside one of its
    settings. -/
inductive Pads : Section → Json → Json → Prop where
  | unnamed {s : Section} {before after : List (String × Json)} {key : String} {v : Json}
      (h : ∀ f : Field, f.home = s → f.key ≠ key) :
      Pads s (.object (before ++ after)) (.object (before ++ (key, v) :: after))
  | default {before after : List (String × Json)} {v : Json} (f : Field) (h : f.IsDefault v)
      (habsent : Json.member? f.key (before ++ after) = none) :
      Pads f.home (.object (before ++ after)) (.object (before ++ (f.key, v) :: after))
  | inside {t : Section} {before after : List (String × Json)} {v w : Json} (f : Field)
      (hinner : f.inner? = some t) (h : Pads t v w) :
      Pads f.home (.object (before ++ (f.key, v) :: after))
        (.object (before ++ (f.key, w) :: after))

/-! ## Members -/

namespace Json

variable {name key : String} {before after : List (String × Json)} {v w : Json}

theorem member?_append :
    member? name (before ++ after) = (member? name before).or (member? name after) :=
  List.lookup_append

theorem member?_cons_self : member? name ((name, v) :: after) = some v :=
  List.lookup_cons_self

theorem member?_cons_of_ne (h : key ≠ name) :
    member? name ((key, v) :: after) = member? name after := by
  have hbeq : (name == key) = false := beq_eq_false_iff_ne.2 h.symm
  unfold member?
  rw [List.lookup_cons, hbeq]

/-- A member of another name is passed over. -/
theorem member?_insert_of_ne (h : key ≠ name) :
    member? name (before ++ (key, v) :: after) = member? name (before ++ after) := by
  rw [member?_append, member?_cons_of_ne h, member?_append]

end Json

/-- What is read of a setting, before and after. -/
inductive Shows (f : Field) : Option Json → Option Json → Prop where
  | same (found : Option Json) : Shows f found found
  | default {v : Json} (h : f.IsDefault v) : Shows f none (some v)
  | inside {t : Section} {v w : Json} (hinner : f.inner? = some t) (h : Pads t v w) :
      Shows f (some v) (some w)

/-- Members from which every setting of an object is read alike. -/
def Alike (s : Section) (members others : List (String × Json)) : Prop :=
  ∀ f : Field, f.home = s → Shows f (Json.member? f.key members) (Json.member? f.key others)

theorem Alike.refl (s : Section) (members : List (String × Json)) : Alike s members members :=
  fun _ _ => .same _

/-- One more member that says nothing new leaves every setting as it was. -/
theorem Pads.alike {s : Section} {v w : Json} (h : Pads s v w) :
    ∃ members others, v = .object members ∧ w = .object others ∧ Alike s members others := by
  cases h with
  | unnamed h =>
      refine ⟨_, _, rfl, rfl, fun f hf => ?_⟩
      rw [Json.member?_insert_of_ne (Ne.symm (h f hf))]
      exact .same _
  | default g h habsent =>
      refine ⟨_, _, rfl, rfl, fun f _ => ?_⟩
      by_cases hkey : g.key = f.key
      · obtain rfl := Field.key_injective hkey
        rw [habsent]
        rw [Json.member?_append, Option.or_eq_none_iff] at habsent
        rw [Json.member?_append, habsent.1, Json.member?_cons_self]
        exact .default h
      · rw [Json.member?_insert_of_ne hkey]
        exact .same _
  | @inside _ before after v w g hinner h =>
      refine ⟨_, _, rfl, rfl, fun f _ => ?_⟩
      by_cases hkey : g.key = f.key
      · obtain rfl := Field.key_injective hkey
        rw [Json.member?_append, Json.member?_append, Json.member?_cons_self,
          Json.member?_cons_self]
        -- an earlier member of that name hides this one
        cases Json.member? g.key before with
        | none => exact .inside hinner h
        | some first => exact .same _
      · rw [Json.member?_insert_of_ne hkey, Json.member?_insert_of_ne hkey]
        exact .same _

/-! ## What is read of members that are alike -/

section

open Setting

variable {β : Type} {s : Section} {f : Field} {v w default : Json} {setting : String}
  {members others : List (String × Json)} {next next' : List (String × Json) → Except Fault β}

/-- What is read of a setting that is no object, if it is read alike of every spelling of its
    default. -/
theorem Shows.read {found other : Option Json} (h : Shows f found other) (hinner : f.inner? = none)
    (reader : Json → β) (hdefault : ∀ v, f.IsDefault v → reader v = reader default) :
    reader (found.getD default) = reader (other.getD default) := by
  cases h with
  | same found => rfl
  | default h => exact (hdefault _ h).symm
  | inside hin =>
      rw [hinner] at hin
      cases hin

/-- A setting that has no default is there in both or in none. -/
theorem Shows.eq {found other : Option Json} (h : Shows f found other) (hinner : f.inner? = none)
    (hdefault : ∀ v, ¬ f.IsDefault v) : found = other := by
  cases h with
  | same found => rfl
  | default h => exact absurd h (hdefault _)
  | inside hin =>
      rw [hinner] at hin
      cases hin

/-- Objects of which one has a member more. -/
theorem Pads.object_bind (h : Pads s v w)
    (hnext : ∀ members others, Alike s members others → next members = next' others) :
    (object setting v >>= next) = (object setting w >>= next') := by
  obtain ⟨members, others, rfl, rfl, halike⟩ := h.alike
  exact hnext members others halike

theorem Shows.object_bind {found other : Option Json} (h : Shows f found other)
    (hinner : f.inner? = some s) (hdefault : ∀ v, f.IsDefault v → v = .object [])
    (hnext : ∀ members others, Alike s members others → next members = next' others) :
    (object setting (found.getD (.object [])) >>= next) =
      (object setting (other.getD (.object [])) >>= next') := by
  have hsame : next = next' := funext fun members => hnext members members (.refl s members)
  cases h with
  | same found => rw [hsame]
  | default h =>
      rw [hdefault _ h, hsame]
      rfl
  | inside hin hpads =>
      obtain rfl := Option.some.inj (hinner.symm.trans hin)
      exact hpads.object_bind hnext

namespace Alike

theorem read (f : Field) (h : Alike f.home members others) (hinner : f.inner? = none)
    (reader : Json → β) (hdefault : ∀ v, f.IsDefault v → reader v = reader default) :
    reader (get members f.key default) = reader (get others f.key default) :=
  (h f rfl).read hinner reader hdefault

/-- The value of a setting whose default is written in one way. -/
theorem get_eq (f : Field) (h : Alike f.home members others) (hinner : f.inner? = none)
    (hdefault : ∀ v, f.IsDefault v → v = default) :
    get members f.key default = get others f.key default :=
  h.read f hinner id hdefault

/-- A setting that is an object is read first, then the settings in it. -/
theorem object_bind (f : Field) (h : Alike f.home members others) (hinner : f.inner? = some s)
    (hdefault : ∀ v, f.IsDefault v → v = .object [])
    (hnext : ∀ members others, Alike s members others → next members = next' others) :
    (object setting (get members f.key (.object [])) >>= next) =
      (object setting (get others f.key (.object [])) >>= next') :=
  (h f rfl).object_bind hinner hdefault hnext

/-- A number whose default may be written as an integer or not. -/
theorem number_eq (f : Field) (h : Alike f.home members others) (hinner : f.inner? = none)
    {x : Binary64} (hx : default.number? = some x)
    (hdefault : ∀ v, f.IsDefault v → v.number? = some x) :
    number setting (get members f.key default) = number setting (get others f.key default) := by
  refine h.read f hinner (number setting) fun v hv => ?_
  rw [number_of_number? (hdefault v hv), number_of_number? hx]

end Alike

end

/-! ## Configurations -/

namespace Config

open Setting

variable {members others : List (String × Json)}

theorem readGrammar_eq (h : Alike .root members others) :
    readGrammar members = readGrammar others := by
  have hstart : get members "axiom" (.string "") = get others "axiom" (.string "") :=
    h.get_eq .start rfl fun _ h => h
  have hiterations : get members "iterations" (.integer 1) = get others "iterations" (.integer 1) :=
    h.get_eq .iterations rfl fun _ h => h
  have hrules : get members "rules" (.object []) = get others "rules" (.object []) :=
    h.get_eq .rules rfl fun _ h => h
  unfold readGrammar
  rw [hstart, hiterations, hrules]

theorem readPlaces_eq (h : Alike .svg members others) : readPlaces members = readPlaces others := by
  have hplaces : get members "precision" (.integer 3) = get others "precision" (.integer 3) :=
    h.get_eq .places rfl fun _ h => h
  unfold readPlaces
  rw [hplaces]

theorem optional_eq {α : Type} {one : Json → Except Fault α} (f : Field)
    (h : Alike f.home members others) (hinner : f.inner? = none)
    (hdefault : ∀ v, f.IsDefault v → v = .null) :
    optional members f.key one = optional others f.key one := by
  unfold Setting.optional
  rw [h.get_eq f hinner hdefault]

theorem readStyle_eq (h : Alike .svg members others) : readStyle members = readStyle others := by
  unfold readStyle
  refine h.object_bind .style rfl (fun _ h => h) fun style other hstyle => ?_
  have hpalette : get style "palette" (.array []) = get other "palette" (.array []) :=
    hstyle.get_eq .palette rfl fun _ h => h
  have hstroke : get style "stroke" (.string Style.standard.stroke) =
      get other "stroke" (.string Style.standard.stroke) :=
    hstyle.get_eq .stroke rfl fun _ h => h
  have hwidth : number "svg.style.stroke_width"
        (get style "stroke_width" (.float Style.standard.strokeWidth)) =
      number "svg.style.stroke_width"
        (get other "stroke_width" (.float Style.standard.strokeWidth)) :=
    hstyle.number_eq .strokeWidth rfl (by decide +kernel) fun _ h => h
  have hlineCap : get style "stroke_linecap" (.string Style.standard.lineCap) =
      get other "stroke_linecap" (.string Style.standard.lineCap) :=
    hstyle.get_eq .lineCap rfl fun _ h => h
  rw [hpalette, hstroke, hwidth, hlineCap]

theorem turtle_eq (h : Alike .turtle members others) :
    Json.member? "angle" members = Json.member? "angle" others ∧
    number "turtle.heading" (get members "heading" (.integer 90)) =
      number "turtle.heading" (get others "heading" (.integer 90)) ∧
    positive "turtle.step" (get members "step" (.integer 1)) =
      positive "turtle.step" (get others "step" (.integer 1)) ∧
    symbols "turtle.draw_aliases" (get members "draw_aliases" (.string "")) =
      symbols "turtle.draw_aliases" (get others "draw_aliases" (.string "")) := by
  have hstep : number "turtle.step" (get members "step" (.integer 1)) =
      number "turtle.step" (get others "step" (.integer 1)) :=
    h.number_eq .step rfl (by decide +kernel) fun _ h => h
  refine ⟨(h .angle rfl).eq rfl fun _ h => h, ?_, ?_, ?_⟩
  · exact h.number_eq .heading rfl (by decide +kernel) fun _ h => h
  · unfold positive
    rw [hstep]
  · refine h.read .aliases rfl (symbols "turtle.draw_aliases") fun v hv => ?_
    rcases hv with rfl | rfl
    · rfl
    · rfl

theorem output_eq (h : Alike .output members others) :
    get members "extra_info" (.boolean false) = get others "extra_info" (.boolean false) ∧
    get members "remove_duplicates" (.boolean true) =
      get others "remove_duplicates" (.boolean true) :=
  ⟨h.get_eq .annotate rfl fun _ h => h, h.get_eq .distinct rfl fun _ h => h⟩

theorem svg_eq (h : Alike .svg members others) :
    number "svg.margin" (get members "margin" (.integer 1)) =
      number "svg.margin" (get others "margin" (.integer 1)) ∧
    get members "flip_y" (.boolean true) = get others "flip_y" (.boolean true) ∧
    (∀ one : Json → Except Fault Binary64,
      optional members "width" one = optional others "width" one ∧
      optional members "height" one = optional others "height" one) ∧
    ∀ one : Json → Except Fault String,
      optional members "background" one = optional others "background" one := by
  refine ⟨h.number_eq .margin rfl (by decide +kernel) fun _ h => h, ?_, fun one => ⟨?_, ?_⟩,
    fun one => ?_⟩
  · exact h.get_eq .flip rfl fun _ h => h
  · exact optional_eq .width h rfl fun _ h => h
  · exact optional_eq .height h rfl fun _ h => h
  · exact optional_eq .background h rfl fun _ h => h

/-- **What is not documented is not read.** One more member that says nothing new changes neither
    the configuration nor the refusal. -/
theorem ofJson_pads {v w : Json} (h : Pads .root v w) : ofJson v = ofJson w := by
  unfold ofJson
  refine h.object_bind fun root other hroot => ?_
  have hname : get root "name" (.string "L-System") = get other "name" (.string "L-System") :=
    hroot.get_eq .name rfl fun _ h => h
  rw [hname, readGrammar_eq hroot]
  refine bind_congr fun name => bind_congr fun grammar => ?_
  refine hroot.object_bind .turtle rfl (fun _ h => h) fun turtle turtle' hturtle => ?_
  obtain ⟨hangle, hheading, hstep, haliases⟩ := turtle_eq hturtle
  have hget : get turtle "angle" .null = get turtle' "angle" .null :=
    congrArg (fun found => found.getD .null) hangle
  rw [hangle, hget, hheading, hstep, haliases]
  refine bind_congr fun _ => bind_congr fun angle => bind_congr fun heading => ?_
  refine bind_congr fun step => bind_congr fun aliases => ?_
  refine hroot.object_bind .output rfl (fun _ h => h) fun output output' houtput => ?_
  rw [(output_eq houtput).1, (output_eq houtput).2]
  refine bind_congr fun annotate => bind_congr fun distinct => ?_
  refine hroot.object_bind .svg rfl (fun _ h => h) fun svg svg' hsvg => ?_
  obtain ⟨hmargin, hflip, hsize, hbackground⟩ := svg_eq hsvg
  rw [hmargin, readPlaces_eq hsvg, hflip, (hsize _).1, (hsize _).2, readStyle_eq hsvg, hbackground]

/-- Configurations that are the same but for members that say nothing, in any number and in any of
    their objects, are read alike. -/
theorem ofJson_eqvGen {v w : Json} (h : Relation.EqvGen (Pads .root) v w) :
    ofJson v = ofJson w := by
  induction h with
  | rel v w h => exact ofJson_pads h
  | refl v => rfl
  | symm v w _ ih => exact ih.symm
  | trans u v w _ _ ihleft ihright => exact ihleft.trans ihright

end Config

end TurtleGrammar
