import Mathlib.Data.List.Basic
import Mathlib.Tactic

/-! # Parsing the command line

`whist_parse_command_line`.  A handler may answer as it likes, also differently after other calls, so it
is a function of the calls made before.  What is printed is left out.
-/
namespace Whist.CommandLine

abbrev Word := List Char

abbrev WhistStatus := ℤ

def success : WhistStatus := 0
def invalidArgument : WhistStatus := -2
def notFound : WhistStatus := -3
def errorSyntax : WhistStatus := -5

inductive OptionHandler
  | help
  | version
  | registered (n : ℕ)
deriving DecidableEq

/-- The flags are the two that the parser looks at. -/
structure WhistCommandLineOption where
  shortOption : Option Char
  longOption : Option Word
  optionalArgument : Bool
  requiredArgument : Bool
  handler : OptionHandler

def helpOption : WhistCommandLineOption := ⟨none,some ['h','e','l','p'],false,false,.help⟩

def versionOption : WhistCommandLineOption := ⟨none,some ['v','e','r','s','i','o','n'],false,false,.version⟩

/-- `option_list`, while a command line is parsed. -/
def optionList (registered : List WhistCommandLineOption) : List WhistCommandLineOption :=
  registered ++ [helpOption,versionOption]

inductive Call
  | option (opt : WhistCommandLineOption) (value : Option Word)
  | operand (position : ℕ) (value : Word)

/-- The handlers of the registered options and of the operands.  The one of the operands may be `NULL`. -/
structure Handlers where
  answer : List Call → Call → WhistStatus
  takesOperands : Bool

/-- A call after others.  The options for help and version are set by the handler for booleans, which
succeeds without a value. -/
def Handlers.call (h : Handlers) (calls : List Call) : Call → WhistStatus
  | .option opt value =>
    match opt.handler with
    | .registered _ => h.answer calls (.option opt value)
    | _ => success
  | .operand position value => h.answer calls (.operand position value)

def showsUsage (calls : List Call) : Bool := calls.any fun c =>
  match c with
  | .option opt _ => opt.handler = .help ∨ opt.handler = .version
  | .operand _ _ => false

def findShortOption (options : List WhistCommandLineOption) (flag : Char) : Option WhistCommandLineOption :=
  options.find? fun opt => opt.shortOption = some flag

def WhistCommandLineOption.startsWith (opt : WhistCommandLineOption) (name : Word) : Bool :=
  match opt.longOption with
  | none => false
  | some long => name.isPrefixOf long

/-- The loop over the options, with the one that was matched before. -/
def findLongOption (name : Word) :
    List WhistCommandLineOption → Option WhistCommandLineOption → Option WhistCommandLineOption
  | [], matched => matched
  | opt :: options, matched =>
    if opt.startsWith name then
      match matched with
      | some _ => none
      | none => findLongOption name options (some opt)
    else findLongOption name options matched

def callOptionHandler (h : Handlers) (calls : List Call) (opt : WhistCommandLineOption) (value : Option Word) :
    WhistStatus × List Call :=
  if opt.requiredArgument ∧ value = none then (invalidArgument,calls)
  else (h.call calls (.option opt value),calls ++ [.option opt value])

inductive Flow
  | next (calls : List Call) (skip : Bool)
  | failed (calls : List Call) (status : WhistStatus)
  | operands (calls : List Call)
  | crashed (calls : List Call)

def Flow.ofStatus (ret : WhistStatus × List Call) (skip : Bool) : Flow :=
  if ret.1 = success then .next ret.2 skip else .failed ret.2 ret.1

def plainWord (following : Option Word) : Option Word := following.filter fun word => word.head? ≠ some '-'

def splitName (text : Word) : Word × Option Word :=
  (text.takeWhile (fun c => c ≠ '='),
    if '=' ∈ text then some (text.dropWhile fun c => c ≠ '=').tail else none)

variable (options : List WhistCommandLineOption) (h : Handlers)

def parseLong (following : Option Word) (text : Word) (calls : List Call) : Flow :=
  match findLongOption (splitName text).1 options none with
  | none => .failed calls notFound
  | some opt =>
    if opt.requiredArgument then
      match (splitName text).2 with
      | some value => .ofStatus (callOptionHandler h calls opt (some value)) false
      | none =>
        match following with
        | none => .failed calls errorSyntax
        | some value => .ofStatus (callOptionHandler h calls opt (some value)) true
    else if opt.optionalArgument ∧ ((splitName text).2.isSome ∨ (plainWord following).isSome) then
      match (splitName text).2 with
      | some value => .ofStatus (callOptionHandler h calls opt (some value)) false
      | none => .ofStatus (callOptionHandler h calls opt following) true
    else
      match (splitName text).2 with
      | some _ => .failed calls errorSyntax
      | none => .ofStatus (callOptionHandler h calls opt none) false

def parseShorts (following : Option Word) : Word → WhistStatus → List Call → Flow
  | [], ret, calls => .ofStatus (ret,calls) false
  | c :: rest, _, calls =>
    match findShortOption options c with
    | none => .failed calls notFound
    | some opt =>
      if opt.requiredArgument then
        if rest ≠ [] then .ofStatus (callOptionHandler h calls opt (some rest)) false
        else
          match following with
          | some value => .ofStatus (callOptionHandler h calls opt (some value)) true
          | none => .failed calls errorSyntax
      else if opt.optionalArgument ∧ rest ≠ [] then .ofStatus (callOptionHandler h calls opt (some rest)) false
      else if opt.optionalArgument ∧ (plainWord following).isSome then
        .ofStatus (callOptionHandler h calls opt following) true
      else
        let ret := callOptionHandler h calls opt none
        parseShorts following rest ret.1 ret.2

def parseOperand (position : ℕ) (arg : Word) (calls : List Call) : Flow :=
  if h.takesOperands then .ofStatus (h.call calls (.operand position arg),calls ++ [.operand position arg]) false
  else .crashed calls

def parseWord (position : ℕ) (arg : Word) (following : Option Word) (calls : List Call) : Flow :=
  match arg with
  | ['-','-'] => .operands calls
  | '-' :: '-' :: c :: text => parseLong options h following (c :: text) calls
  | '-' :: c :: rest => parseShorts options h following (c :: rest) success calls
  | _ => parseOperand h position arg calls

inductive Outcome
  | returned (status : WhistStatus)
  | exited
  | crashed

abbrev Result := List Call × Outcome

def finish (calls : List Call) (status : WhistStatus) : Result :=
  (calls,if showsUsage calls then .exited else .returned status)

def parseOperands : ℕ → List Word → List Call → Result
  | _, [], calls => (calls,.returned success)
  | position, arg :: rest, calls =>
    if h.takesOperands then
      let ret := h.call calls (.operand position arg)
      if ret = success then parseOperands (position + 1) rest (calls ++ [.operand position arg])
      else (calls ++ [.operand position arg],.returned ret)
    else (calls,.crashed)

def parseWords : ℕ → Bool → List Word → List Call → Result
  | _, _, [], calls => finish calls success
  | position, true, _ :: rest, calls => parseWords (position + 1) false rest calls
  | position, false, arg :: rest, calls =>
    match parseWord options h position arg rest.head? calls with
    | .next calls skip => parseWords (position + 1) skip rest calls
    | .failed calls status => finish calls status
    | .operands calls => if showsUsage calls then (calls,.exited) else parseOperands h (position + 1) rest calls
    | .crashed calls => (calls,.crashed)

/-- `argv[0]` is not parsed. -/
def whistParseCommandLine (registered : List WhistCommandLineOption) (h : Handlers) (argv : List Word) : Result :=
  parseWords (optionList registered) h 1 false argv.tail []

theorem findLongOption_some (name : Word) (options : List WhistCommandLineOption) (matched : WhistCommandLineOption) :
    findLongOption name options (some matched) =
      if options.filter (fun opt => opt.startsWith name) = [] then some matched else none := by
  induction options with
  | nil => rfl
  | cons opt options ih =>
    rw [findLongOption, List.filter_cons]
    by_cases hopt : opt.startsWith name = true
    · rw [if_pos hopt, if_pos hopt, if_neg (List.cons_ne_nil _ _)]
    · rw [if_neg hopt, if_neg hopt, ih]

theorem findLongOption_eq_some_iff (name : Word) (options : List WhistCommandLineOption) (opt : WhistCommandLineOption) :
    findLongOption name options none = some opt ↔ options.filter (fun opt => opt.startsWith name) = [opt] := by
  induction options with
  | nil => exact iff_of_false (by rintro ⟨⟩) (by rintro ⟨⟩)
  | cons first options ih =>
    rw [findLongOption, List.filter_cons]
    by_cases hfirst : first.startsWith name = true
    · rw [if_pos hfirst, if_pos hfirst, List.cons.injEq, findLongOption_some]
      by_cases hrest : options.filter (fun opt => opt.startsWith name) = []
      · rw [if_pos hrest, Option.some.injEq]
        exact (and_iff_left hrest).symm
      · rw [if_neg hrest]
        exact iff_of_false (by rintro ⟨⟩) fun h => hrest h.2
    · rw [if_neg hfirst, if_neg hfirst]
      exact ih

end Whist.CommandLine
