import WalletVault.Command
import WalletVault.CommandLine.Grammar
import WalletVault.Config.Basic

/-! Reading a command line. Options stand before the verb or after it, and an option counts only when the
word after its value is reached: until then a word that is wrong in itself is the fault that is reported. -/
namespace WalletVault.CommandLine

inductive Word where
  | plain (text : String)
  | long (name : String) (value : Option String)
  | short (letter : Char)
  | dashes
  deriving DecidableEq, Repr

def Word.ofText (text : String) : Word :=
  match text.toList with
  | ['-', '-'] => .dashes
  | '-' :: '-' :: rest =>
    match rest.span (· ≠ '=') with
    | (name, []) => .long (String.ofList name) none
    | (name, _ :: value) => .long (String.ofList name) (some (String.ofList value))
  | '-' :: letter :: _ => .short letter
  | _ => .plain text

inductive Scope where
  | front
  | behind (verb : Verb)
  deriving DecidableEq, Repr

def Scope.parameters : Scope → List Parameter
  | front => Parameter.everywhere
  | behind verb => verb.required ++ verb.optional ++ Parameter.everywhere

/-- The options given in one scope, from the last to the first, with their values. -/
abbrev Given := List (Parameter × String)

/-- The options of a scope that count, and the one that does not count yet, with its value once that is
reached. -/
structure Progress where
  given : Given
  pending : Option (Parameter × Option String)

namespace Progress

def start : Progress := ⟨[], none⟩

def awaits (progress : Progress) : Bool :=
  match progress.pending with
  | some (_, none) => true
  | _ => false

def take (given : Given) (parameter : Parameter) (value : String) : Except Usage Given :=
  if parameter.intake ≠ .many ∧ (given.lookup parameter).isSome then .error .repeated
  else (parameter.check value).map fun () => (parameter, value) :: given

def settle (progress : Progress) : Except Usage Given :=
  match progress.pending with
  | none => .ok progress.given
  | some (_, none) => .error .valueMissing
  | some (parameter, some value) => take progress.given parameter value

def option (progress : Progress) (parameter : Parameter) (value : Option String) : Except Usage Progress :=
  match parameter.intake, value with
  | .nothing, some _ => .error .unwantedValue
  | .nothing, none => do
    let given ← take (← progress.settle) parameter ""
    pure ⟨given, none⟩
  | _, some value => do
    let given ← take (← progress.settle) parameter value
    pure ⟨given, none⟩
  | _, none => do
    let given ← progress.settle
    pure ⟨given, some (parameter, none)⟩

def request (progress : Progress) (usage : Usage) : Except Usage Progress := do
  let _ ← progress.settle
  throw usage

def long (scope : Scope) (progress : Progress) (name : String) (value : Option String) :
    Except Usage Progress :=
  if name = "help" ∨ (name = "version" ∧ scope = .front) then
    if value.isSome then .error .unwantedValue
    else progress.request (if name = "help" then .help else .version)
  else
    match scope.parameters.find? (·.word = name) with
    | none => .error .unknownWord
    | some parameter => progress.option parameter value

def short (scope : Scope) (progress : Progress) (letter : Char) : Except Usage Progress :=
  if letter = 'h' then progress.request .help
  else if letter = 'V' ∧ scope = .front then progress.request .version
  else .error .unknownWord

end Progress

def Scope.surplus : Scope → Usage
  | front => .unknownVerb
  | behind _ => .unknownWord

def Scope.trailing : Scope → String → Usage
  | front, word => if word = "help" ∨ (Verb.ofWord? word).isSome then .unknownWord else .unknownVerb
  | behind _, _ => .unknownWord

def helpAbout : List String → Usage
  | [] => .help
  | [about] => if about = "help" ∨ (Verb.ofWord? about).isSome then .help else .unknownVerb
  | _ => .unknownVerb

def verbDue (scope : Scope) (progress : Progress) : Bool := scope = .front ∧ ¬ progress.awaits

def scan (scope : Scope) (progress : Progress) :
    List String → Except Usage (Progress × Option (Verb × List String))
  | [] => .ok (progress, none)
  | word :: rest =>
    if verbDue scope progress ∧ word = "help" then .error (helpAbout rest)
    else
      match if verbDue scope progress then Verb.ofWord? word else none with
      | some verb => .ok (progress, some (verb, rest))
      | none =>
        match Word.ofText word with
        | .dashes =>
          match rest with
          | [] => .ok (progress, none)
          | next :: _ => .error (scope.trailing next)
        | .long name value => do
          let progress ← progress.long scope name value
          scan scope progress rest
        | .short letter => do
          let progress ← progress.short scope letter
          scan scope progress rest
        | .plain text =>
          match progress.pending with
          | some (parameter, none) => scan scope { progress with pending := some (parameter, some text) } rest
          | _ => .error scope.surplus

abbrev Environment := String → Option String

def addEnvironment (environment : Environment) (given : Given) : List Parameter → Except Usage Given
  | [] => .ok given
  | parameter :: rest =>
    match given.lookup parameter, parameter.variableName?.bind environment with
    | none, some value => do
      let given ← Progress.take given parameter value
      addEnvironment environment given rest
    | _, _ => addEnvironment environment given rest

structure Invocation where
  root : Option String
  logFormat : Option LogFormat
  logLevel : Option String
  configFile : Option String
  passphrase : Option String
  command : Command
  deriving DecidableEq, Repr

def need (given : Given) (parameter : Parameter) : Except Usage String :=
  match given.lookup parameter with
  | some value => .ok value
  | none => .error .optionMissing

def notes (given : Given) : List Note :=
  (given.filter (·.1 = .note)).reverse.filterMap fun (_, value) => (Note.ofText value).toOption

def payload (given : Given) : Except Usage Payload := do
  pure ⟨← need given .message, (given.lookup .hex).isSome⟩

def command (verb : Verb) (given : Given) : Except Usage Command :=
  match verb with
  | .names => pure .names
  | .create => return .create (← need given .wallet)
  | .importPhrase => return .importPhrase (← need given .wallet) (← need given .mnemonic)
  | .show => return .show (← need given .wallet)
  | .generateKey => return .generateKey (← need given .wallet) (notes given)
  | .listKeys => return .listKeys (← need given .wallet)
  | .describe => return .describe (← need given .wallet) (← need given .key)
  | .sign =>
    return .sign (← need given .wallet) (← need given .key) (← payload given) (given.lookup .tx).isSome
  | .verify =>
    return .verify (← need given .wallet) (← need given .key) (← payload given) (← need given .signature)
  | .taint => return .taint (← need given .wallet) (← need given .key)
  | .untaint => return .untaint (← need given .wallet) (← need given .key)
  | .annotate => return .annotate (← need given .wallet) (← need given .key) (notes given)

def valueOf (environment : Environment) (front behind : Given) (parameter : Parameter) : Option String :=
  (behind.lookup parameter).or ((front.lookup parameter).or (parameter.variableName?.bind environment))

/-- Reads a line under an environment. The words behind the verb are judged before those in front. -/
def read (environment : Environment) (words : List String) : Except Usage Invocation := do
  let (progress, found) ← scan .front .start words
  match found with
  | none =>
    let front ← addEnvironment environment (← progress.settle) Parameter.everywhere
    throw (if front.isEmpty then .nothingGiven else .verbMissing)
  | some (verb, rest) =>
    let (inner, _) ← scan (.behind verb) .start rest
    let behind ← inner.settle
    let full ← addEnvironment environment behind (Scope.behind verb).parameters
    let command ← command verb full
    let front ← progress.settle
    let _ ← addEnvironment environment front Parameter.everywhere
    let value := valueOf environment front behind
    pure {
      root := value .root
      logFormat := (value .logFormat).bind fun text => (LogFormat.ofText text).toOption
      logLevel := value .logLevel
      configFile := value .config
      passphrase := value .passphrase
      command := command }

end WalletVault.CommandLine
