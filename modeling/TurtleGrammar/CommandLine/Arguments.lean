import TurtleGrammar.Text.DecimalDigit
import TurtleGrammar.Text.Quoted

/-!
# `TurtleGrammar.CommandLine.Arguments` — switches and operands

An interface has switches, which start with a hyphen and may stand anywhere, and operands, which are
told apart by their order. A switch may be shortened as long as one switch is meant, and a value may
follow it after an equals sign or as the next argument. After the divider `--` every argument is an
operand.

## Contents
- `Switch`, `Operand`, `Interface`: what arguments are understood.
- `Stop`: arguments that end the run, with help or with a refusal.
- `Mark`, `Interface.mark`: whether an argument is a switch, the divider, or neither.
- `Interface.parse`: the switches and operands among arguments.
-/

namespace TurtleGrammar

namespace CommandLine

/-- What a switch does. -/
inductive SwitchKind where
  /-- It asks for help. -/
  | help
  /-- It is set. -/
  | flag
  /-- It takes one of some values. -/
  | value (choices : List String)
  deriving DecidableEq

/-- A switch with all its names. -/
structure Switch where
  names : List String
  kind : SwitchKind
  deriving DecidableEq

/-- How a switch is called in a refusal. -/
def Switch.label (s : Switch) : String := String.intercalate "/" s.names

/-- How many arguments an operand takes. -/
inductive Arity where
  | one
  | optional
  /-- One of some words, and everything after it, switches included. -/
  | word (choices : List String)
  deriving DecidableEq

/-- An operand. -/
structure Operand where
  name : String
  arity : Arity
  deriving DecidableEq

/-- The arguments that a program or one of its commands understands. -/
structure Interface where
  program : String
  usage : String
  help : String
  switches : List Switch
  operands : List Operand

/-- Arguments that end the run: with a help text, or with a refusal. -/
inductive Stop where
  | help (text : String)
  | misuse (text : String)
  deriving DecidableEq

/-- The refusal of arguments, after the usage of the interface. -/
def Interface.misuse {α : Type} (i : Interface) (why : String) : Except Stop α :=
  .error (.misuse (i.usage ++ i.program ++ ": error: " ++ why ++ "\n"))

/-- The refusal of a value of one argument. -/
def Interface.reject {α : Type} (i : Interface) (label why : String) : Except Stop α :=
  i.misuse ("argument " ++ label ++ ": " ++ why)

/-- Words with commas between them. -/
def listed (words : List String) : String := String.intercalate ", " words

/-- A value must be among the choices, if there are any. -/
def Interface.choose (i : Interface) (label : String) (choices : List String) (value : String) :
    Except Stop Unit :=
  if choices.isEmpty || choices.contains value then .ok ()
  else
    i.reject label
      ("invalid choice: " ++ Text.quoted value ++ " (choose from " ++
        listed (choices.map Text.quoted) ++ ")")

/-! ## Telling switches from operands -/

/-- A switch that an argument names, under which name, and the text attached to it: after an equals
    sign or right after the letter. -/
structure Hit where
  switch : Switch
  name : String
  attached : Option (List Char)
  deriving DecidableEq

/-- What an argument is. -/
inductive Mark where
  | plain
  | divider
  /-- A switch, `none` if the interface does not know it. -/
  | switch (hit : Option Hit)
  deriving DecidableEq

def Mark.isSwitch : Mark → Bool
  | switch _ => true
  | _ => false

def Mark.isDivider : Mark → Bool
  | divider => true
  | _ => false

/-- The names of all switches with their switches. -/
def Interface.names (i : Interface) : List (String × Switch) :=
  i.switches.flatMap fun s => s.names.map fun name => (name, s)

/-- The part of a text before the first equals sign and the part after it. -/
def splitEquals (text : List Char) : List Char × Option (List Char) :=
  let before := text.takeWhile (· != '=')
  match text.drop before.length with
  | _ :: after => (before, some after)
  | [] => (before, none)

/-- Does a text start with two hyphens? -/
def isLong (text : List Char) : Bool := "--".toList.isPrefixOf text

/-- The switches of which an argument may be a short form. An argument that starts with two hyphens
    is the beginning of a name; with one hyphen its first letter may be a name and the rest
    attached. -/
def Interface.abbreviated (i : Interface) (text : List Char) : List Hit :=
  if isLong text then
    let (start, attached) := splitEquals text
    i.names.filterMap fun (name, s) =>
      if start.isPrefixOf name.toList then some ⟨s, name, attached⟩ else none
  else
    i.names.filterMap fun (name, s) =>
      if name.toList = text.take 2 then some ⟨s, name, some (text.drop 2)⟩
      else if text.isPrefixOf name.toList then some ⟨s, name, none⟩
      else none

/-- Is the text a negative number: digits after a hyphen, possibly with a point before the last of
    them? A line feed may end it. -/
def isNegativeNumber (text : List Char) : Bool :=
  let body := if text.getLast? = some '\n' then text.dropLast else text
  match body with
  | '-' :: rest =>
    let whole := rest.takeWhile Text.isDecimalDigit
    match rest.drop whole.length with
    | [] => !whole.isEmpty
    | '.' :: fraction => !fraction.isEmpty && fraction.all Text.isDecimalDigit
    | _ => false
  | _ => false

/-- What an argument before the divider is. -/
def Interface.mark (i : Interface) (argument : String) : Except Stop Mark :=
  let text := argument.toList
  if text.head? != some '-' then .ok .plain
  else
    match i.names.lookup argument with
    | some s => .ok (.switch (some ⟨s, argument, none⟩))
    | none =>
      if text.length = 1 then .ok .plain
      else
        let (start, attached) := splitEquals text
        let named := if attached.isSome then i.names.lookup (String.ofList start) else none
        match named with
        | some s => .ok (.switch (some ⟨s, String.ofList start, attached⟩))
        | none =>
          match i.abbreviated text with
          | [hit] => .ok (.switch (some hit))
          | [] =>
            if isNegativeNumber text || text.contains ' ' then .ok .plain
            else .ok (.switch none)
          | hits =>
            i.misuse ("ambiguous option: " ++ argument ++ " could match " ++
              listed (hits.map Hit.name))

/-- Arguments with their marks. After the divider all are plain. -/
def Interface.markAll (i : Interface) : List String → Except Stop (List (String × Mark))
  | [] => .ok []
  | "--" :: rest => .ok (("--", .divider) :: rest.map fun a => (a, .plain))
  | argument :: rest => do
    let mark ← i.mark argument
    return (argument, mark) :: (← i.markAll rest)

/-! ## Taking switches and operands -/

/-- A switch or an operand that was found, with its values. -/
inductive Taken where
  | switch (s : Switch) (value : Option String)
  | operand (name : String) (values : List String)

/-- What was found, which operands are still to come, and what nothing was made of. -/
structure Progress where
  taken : List Taken
  pending : List Operand
  unknown : List String

/-- Record a switch. One that asks for help ends the run, and a value, if there is one, must be
    among the choices. -/
def Interface.use (i : Interface) (p : Progress) (s : Switch) (value : Option String) :
    Except Stop Progress :=
  match s.kind, value with
  | .help, _ => .error (.help i.help)
  | .value choices, some v => do
    i.choose s.label choices v
    return { p with taken := p.taken ++ [.switch s value] }
  | _, _ => .ok { p with taken := p.taken ++ [.switch s value] }

/-- Record switches in their order. -/
def Interface.useAll (i : Interface) (p : Progress) :
    List (Switch × Option String) → Except Stop Progress
  | [] => .ok p
  | (s, value) :: rest => do i.useAll (← i.use p s value) rest

/-- A switch with nothing attached: its value, if it takes one, is the next argument. -/
def Interface.detached (i : Interface) (p : Progress) (done : List (Switch × Option String))
    (s : Switch) (rest : List (String × Mark)) : Except Stop (Progress × Nat) :=
  match s.kind with
  | .value _ =>
    match rest with
    | (v, .plain) :: _ => (i.useAll p (done ++ [(s, some v)])).map (·, 1)
    | _ => i.reject s.label "expected one argument"
  | _ => (i.useAll p (done ++ [(s, none)])).map (·, 0)

/-- The value that an attached text stands for. The divider is no value, even where it is attached.
    -/
def attachedValue (text : List Char) : Option String :=
  if text = "--".toList then none else some (String.ofList text)

/-- A switch with a text attached, for which only one that takes a value has a use. -/
def Interface.assigned (i : Interface) (p : Progress) (done : List (Switch × Option String))
    (s : Switch) (text : List Char) : Except Stop (Progress × Nat) :=
  match s.kind with
  | .value _ => (i.useAll p (done ++ [(s, attachedValue text)])).map (·, 0)
  | _ => i.reject s.label ("ignored explicit argument " ++ Text.quoted (String.ofList text))

/-- A switch named by one letter with a text attached. The text is its value if it takes one;
    otherwise further letters follow, each a switch of its own, and the last of them may have a
    value. No switch counts before all the letters are known. The result counts the arguments taken
    from `rest`. -/
def Interface.cluster (i : Interface) (p : Progress) (rest : List (String × Mark))
    (done : List (Switch × Option String)) (s : Switch) : List Char → Except Stop (Progress × Nat)
  | [] => i.assigned p done s []
  | letter :: more =>
    match s.kind, i.names.lookup (String.ofList ['-', letter]) with
    | .value _, _ => i.assigned p done s (letter :: more)
    | _, none => i.assigned p done s (letter :: more)
    | _, some next =>
      if more.isEmpty then i.detached p (done ++ [(s, none)]) next rest
      else i.cluster p rest (done ++ [(s, none)]) next more

/-- A switch with what is attached to it. The result counts the arguments taken from `rest`. -/
def Interface.takeSwitch (i : Interface) (p : Progress) (hit : Hit) (rest : List (String × Mark)) :
    Except Stop (Progress × Nat) :=
  match hit.attached with
  | none => i.detached p [] hit.switch rest
  | some text =>
    if isLong hit.name.toList then i.assigned p [] hit.switch text
    else i.cluster p rest [] hit.switch text

/-- How many arguments an operand takes from the head of a list; `none` if there are none for it.
    The divider may stand on either side of an operand. -/
def Arity.count? (arity : Arity) (marks : List Mark) : Option Nat :=
  let before := (marks.takeWhile Mark.isDivider).length
  let marks := marks.drop before
  match arity, marks with
  | .one, .plain :: rest => some (before + 1 + (rest.takeWhile Mark.isDivider).length)
  | .optional, .plain :: rest => some (before + 1 + (rest.takeWhile Mark.isDivider).length)
  | .optional, _ => some before
  | .word _, .plain :: _ => some (before + marks.length)
  | _, _ => none

/-- The pending operands that the head of a list holds, with the number of arguments of each. -/
def counts : List Operand → List Mark → List (Operand × Nat)
  | [], _ => []
  | o :: rest, marks =>
    match o.arity.count? marks with
    | none => []
    | some n => (o, n) :: counts rest (marks.drop n)

/-- How many arguments operands take together. -/
def totalCount (found : List (Operand × Nat)) : Nat := found.foldl (fun n o => n + o.2) 0

/-- Record an operand. The first divider among its arguments does not count, except before a word.
    -/
def Interface.takeOperand (i : Interface) (p : Progress) (o : Operand) (arguments : List String) :
    Except Stop Progress := do
  let values ←
    match o.arity with
    | .word choices => do
      i.choose o.name choices (arguments.head?.getD "")
      pure arguments
    | _ => pure (arguments.erase "--")
  return { p with taken := p.taken ++ [.operand o.name values], pending := p.pending.drop 1 }

/-- Record operands with the arguments that each of them takes. -/
def Interface.takeOperands (i : Interface) (p : Progress) :
    List (Operand × Nat) → List (String × Mark) → Except Stop Progress
  | [], _ => .ok p
  | (o, n) :: rest, items => do
    let p ← i.takeOperand p o ((items.take n).map Prod.fst)
    i.takeOperands p rest (items.drop n)

/-- Take switches and operands from marked arguments. Operands before a switch are taken as far as
    they go; plain arguments that no operand takes are unknown. -/
def Interface.consume (i : Interface) (p : Progress) (items : List (String × Mark)) :
    Except Stop Progress :=
  if items.all (fun item => !item.2.isSwitch) then do
    let found := counts p.pending (items.map Prod.snd)
    let p ← i.takeOperands p found items
    let rest := items.drop (totalCount found)
    return { p with unknown := p.unknown ++ rest.map Prod.fst }
  else
    match items with
    | [] => .ok p
    | (argument, .switch none) :: rest =>
      i.consume { p with unknown := p.unknown ++ [argument] } rest
    | (_, .switch (some hit)) :: rest =>
      match i.takeSwitch p hit rest with
      | .error stop => .error stop
      | .ok (p, used) => i.consume p (rest.drop used)
    | item :: rest =>
      let found := counts p.pending (items.map Prod.snd)
      match i.takeOperands p found items with
      | .error stop => .error stop
      | .ok p =>
        match totalCount found with
        | 0 => i.consume { p with unknown := p.unknown ++ [item.1] } rest
        | n + 1 => i.consume p (rest.drop n)
termination_by items.length
decreasing_by all_goals simp only [List.length_cons, List.length_drop]; omega

/-- Must an operand be given? -/
def Operand.isRequired (o : Operand) : Bool := o.arity != .optional

/-- The switches and operands among arguments, and the arguments of which nothing was made. -/
def Interface.parse (i : Interface) (arguments : List String) : Except Stop Progress := do
  let items ← i.markAll arguments
  let p ← i.consume ⟨[], i.operands, []⟩ items
  match p.pending.filter Operand.isRequired with
  | [] => return p
  | absent =>
    i.misuse ("the following arguments are required: " ++ listed (absent.map Operand.name))

namespace Progress

/-- The values of an operand, none if it was not given. -/
def operand (p : Progress) (name : String) : List String :=
  (p.taken.findSome? fun
    | .operand n values => if n = name then some values else none
    | .switch _ _ => none).getD []

/-- What a switch was given last: a value or none; absent if the switch was not given. -/
def lastGiven? (p : Progress) (label : String) : Option (Option String) :=
  p.taken.reverse.findSome? fun
    | .switch s value => if s.label = label then some value else none
    | .operand _ _ => none

/-- Was the switch given? -/
def isSet (p : Progress) (label : String) : Bool :=
  p.taken.any fun
    | .switch s _ => s.label = label
    | .operand _ _ => false

end Progress

end CommandLine

end TurtleGrammar
