/-
This file tells the words of a command line apart by how they begin, and reads the parameters of a
command.

Two hyphens alone end the parameters. Two hyphens begin a long name, which an equals sign separates
from a value. One hyphen begins a run of short names of one letter each. Any other word, also a
single hyphen and the empty word, stands for itself.

A parameter with a value has it behind an equals sign or in the next word. The value of the next
word is looked at late, when the word after it begins another parameter or the line ends. So where a
line has two mistakes, one that lies in a name is found before one in the value in front of it.

A word that begins with a hyphen is never the value of the parameter before it. Neither command
takes words that belong to no parameter.
-/

import ConnectorSettings.CommandLine
import ConnectorSettings.Text.Split

namespace ConnectorSettings

namespace CommandLine

/-! ### Words -/

inductive Word where
  | endOfParameters
  | long (name : String) (value : Option String)
  /-- The run of letters is `first :: rest`. -/
  | short (first : Char) (rest : List Char)
  | plain (text : String)
  deriving DecidableEq, Repr

def Word.ofLong (text : List Char) : Word :=
  match Text.splitOnce? '=' text with
  | some (name, value) => .long (String.ofList name) (some (String.ofList value))
  | none => .long (String.ofList text) none

def Word.ofText (text : String) : Word :=
  match text.toList with
  | ['-', '-'] => .endOfParameters
  | '-' :: '-' :: rest => .ofLong rest
  | '-' :: first :: rest => .short first rest
  | _ => .plain text

/-! ### Parameters -/

inductive Parameter where
  | backend
  | scope
  | conf
  | set
  | noEnv
  | format
  | showSecrets
  | help
  deriving DecidableEq, Repr

namespace Parameter

instance : Named Parameter where
  all := [.backend, .scope, .conf, .set, .noEnv, .format, .showSecrets, .help]
  name
    | .backend => "backend"
    | .scope => "scope"
    | .conf => "conf"
    | .set => "set"
    | .noEnv => "no-env"
    | .format => "format"
    | .showSecrets => "show-secrets"
    | .help => "help"

def takesValue : Parameter → Bool
  | .backend | .scope | .conf | .set | .format => true
  | .noEnv | .showSecrets | .help => false

/-- Whether the parameter may occur more than once. -/
def isRepeatable : Parameter → Bool
  | .conf | .set => true
  | .backend | .scope | .noEnv | .format | .showSecrets | .help => false

/-- Whether the parameter takes this value. -/
def accepts (parameter : Parameter) (value : String) : Bool :=
  match parameter with
  | .backend => (Named.exactly? value : Option Connector).isSome
  | .format => (Named.exactly? value : Option OutputFormat).isSome
  | .conf => !value.isEmpty
  | .scope | .set | .noEnv | .showSecrets | .help => true

def ofResolve : List Parameter :=
  [.backend, .scope, .conf, .set, .noEnv, .format, .showSecrets, .help]

def ofKeys : List Parameter := [.backend, .scope, .format, .help]

end Parameter

/-! ### Reading -/

/-- The parameters that were accepted, in order, with their values; those that take no value have
the empty one. -/
abbrev Given := List (Parameter × String)

/-- A parameter that is not accepted yet. -/
inductive Pending where
  | nothing
  /-- The next word has to be the value. -/
  | awaiting (parameter : Parameter)
  | held (parameter : Parameter) (value : String)
  deriving DecidableEq, Repr

structure Progress where
  given : Given
  pending : Pending

def accept (parameter : Parameter) (value : String) (given : Given) : Except Stop Given :=
  if !parameter.isRepeatable && given.any fun earlier => earlier.1 == parameter then
    .error .repeated
  else if parameter.accepts value then .ok (given ++ [(parameter, value)])
  else .error .invalidValue

/-- What is given once nothing is pending any more. -/
def Progress.settle (progress : Progress) : Except Stop Given :=
  match progress.pending with
  | .nothing => .ok progress.given
  | .awaiting _ => .error .invalidValue
  | .held parameter value => accept parameter value progress.given

/-- What a long name does. Asking for help ends the reading. -/
def Progress.onParameter (progress : Progress) (parameter : Parameter) (value : Option String) :
    Except Stop Progress :=
  match parameter.takesValue, value with
  | false, some _ => .error .unwantedValue
  | false, none => do
    let given ← progress.settle
    if parameter = .help then throw .helpWanted
    return ⟨← accept parameter "" given, .nothing⟩
  | true, some text => do
    let given ← progress.settle
    return ⟨← accept parameter text given, .nothing⟩
  | true, none => do
    return ⟨← progress.settle, .awaiting parameter⟩

/-- What a word does that does not end the parameters. -/
def Progress.onWord (known : List Parameter) (progress : Progress) : Word → Except Stop Progress
  | .long name value =>
    match known.find? fun parameter => Named.name parameter == name with
    | some parameter => progress.onParameter parameter value
    | none => .error .unknownArgument
  | .short first _ =>
    if first = 'h' then progress.onParameter .help none else .error .unknownArgument
  | .plain text =>
    match progress.pending with
    | .awaiting parameter => .ok ⟨progress.given, .held parameter text⟩
    | .nothing => .error .unknownArgument
    | .held _ _ => .error .unknownArgument
  | .endOfParameters => .error .unknownArgument

/-- Reads words to the end of the line; behind the end of the parameters none may follow. -/
def Progress.run (known : List Parameter) : List String → Progress → Except Stop Given
  | [], progress => progress.settle
  | text :: rest, progress =>
    match Word.ofText text with
    | .endOfParameters => if rest.isEmpty then progress.settle else .error .unknownArgument
    | word => (progress.onWord known word).bind (Progress.run known rest)

def givenOf (known : List Parameter) (words : List String) : Except Stop Given :=
  Progress.run known words ⟨[], .nothing⟩

/-! ### What is given -/

namespace Given

def valuesOf (given : Given) (parameter : Parameter) : List String :=
  (given.filter fun one => one.1 == parameter).map Prod.snd

def valueOf? (given : Given) (parameter : Parameter) : Option String :=
  (given.valuesOf parameter).head?

/-- The choice that a parameter makes. -/
def choiceOf? {α : Type} [Named α] (given : Given) (parameter : Parameter) : Option α :=
  (given.valueOf? parameter).bind Named.exactly?

def has (given : Given) (parameter : Parameter) : Bool :=
  (given.valueOf? parameter).isSome

def resolveRequest (given : Given) : ResolveRequest where
  connector := given.choiceOf? .backend
  scope := given.valueOf? .scope
  files := given.valuesOf .conf
  overrides := given.valuesOf .set
  ignoreEnvironment := given.has .noEnv
  format := given.choiceOf? .format
  showSecrets := given.has .showSecrets

def keysRequest (given : Given) : KeysRequest where
  connector := given.choiceOf? .backend
  scope := given.valueOf? .scope
  format := given.choiceOf? .format

end Given

end CommandLine

end ConnectorSettings
