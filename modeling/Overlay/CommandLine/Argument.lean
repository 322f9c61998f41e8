import Overlay.CommandLine.Option

/-!
# Arguments

Arguments are taken from the front of a list. The value of an option is attached to it
(`--table=NAME`, `-tNAME`, `-t=NAME`) or is the next argument, which must not look like an option.
Short options without value may share one argument (`-vtNAME`). Arguments behind `--` are no options.
-/

namespace Overlay.CommandLine

/-- Why a command line gives no command. -/
inductive Halt where
  /-- The command line is wrong. -/
  | usage
  /-- The version of the program is asked for. -/
  | version
  deriving DecidableEq, Repr

/-- An argument by its form. -/
inductive Argument where
  | separator
  | long (name : String) (value : Option String)
  | short (letters : List Char)
  | word (text : String)
  deriving DecidableEq, Repr

/-- The form of an argument. A single `-` is a word. -/
def Argument.of (text : String) : Argument :=
  match text.toList with
  | ['-', '-'] => .separator
  | '-' :: '-' :: cs =>
    .long (String.ofList (cs.takeWhile (· != '='))) <|
      match cs.dropWhile (· != '=') with
      | [] => none
      | _ :: value => some (String.ofList value)
  | '-' :: c :: cs => .short (c :: cs)
  | _ => .word text

/-- The options given so far, with their values. -/
abbrev Given := List (Opt × String)

/-- Takes in an option with its value. No option may be given twice. -/
def Given.add (given : Given) (o : Opt) (value : String) : Except Halt Given :=
  if o = .version then .error .version
  else if (given.lookup o).isSome || !o.accepts value then .error .usage
  else .ok (given ++ [(o, value)])

/-- Takes in a group of short options. An option that takes a value takes the rest of the group; if
there is none, it is left waiting for its value. -/
def takeShort (allowed : List Opt) (given : Given) : List Char → Except Halt (Given × Option Opt)
  | [] => .ok (given, none)
  | c :: cs =>
    match allowed.find? fun o => o.short? == some c with
    | none => .error .usage
    | some o =>
      if o.takesValue then
        match cs with
        | [] => .ok (given, some o)
        | '=' :: value => (given.add o (String.ofList value)).map (·, none)
        | value => (given.add o (String.ofList value)).map (·, none)
      else do takeShort allowed (← given.add o "") cs

/-- Takes in a long option. If it takes a value and none is attached, it is left waiting for it. -/
def takeLong (allowed : List Opt) (given : Given) (name : String) (value : Option String) :
    Except Halt (Given × Option Opt) :=
  match allowed.find? fun o => o.long == name, value with
  | none, _ => .error .usage
  | some o, none => if o.takesValue then .ok (given, some o) else (given.add o "").map (·, none)
  | some o, some value =>
    if o.takesValue then (given.add o value).map (·, none) else .error .usage

/-- Takes in the argument an option waits for. -/
def takeValue (given : Given) (o : Opt) (argument : String) : Except Halt Given :=
  match Argument.of argument with
  | .word value => given.add o value
  | _ => .error .usage

/-- Takes in options up to the first argument that is none, and gives the arguments from there. -/
def takeOptions (allowed : List Opt) (given : Given) :
    List String → Except Halt (Given × List String)
  | [] => .ok (given, [])
  | argument :: rest => do
    let (given, waiting) ←
      match Argument.of argument with
      | .long name value => takeLong allowed given name value
      | .short letters => takeShort allowed given letters
      | .separator | .word _ => return (given, argument :: rest)
    match waiting, rest with
    | none, rest => takeOptions allowed given rest
    | some o, value :: rest => takeOptions allowed (← takeValue given o value) rest
    | some _, [] => .error .usage

/-- The options of a command and its schema file, from the arguments behind its name. -/
def takeCommand (allowed : List Opt) (arguments : List String) : Except Halt (Given × String) := do
  let (given, rest) ← takeOptions allowed [] arguments
  match rest with
  | [] | ["--"] => .error .usage
  | "--" :: path :: rest =>
    if path.isEmpty || !rest.isEmpty then .error .usage else .ok (given, path)
  | path :: rest => do
    let (given, rest) ← takeOptions allowed given rest
    if path.isEmpty || !(rest == [] || rest == ["--"]) then .error .usage else .ok (given, path)

end Overlay.CommandLine
