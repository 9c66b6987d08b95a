/-
SpatialGrammar/Command/Arguments.lean

The arguments of the command line.

There are three subcommands, which take one document each.  Options may stand before
or after it, with their value in the next argument or after an equals sign, and none
may be given twice; after two dashes nothing is an option any more.  Arguments are
read from left to right, and the first one that settles what to do does.
-/
import SpatialGrammar.Decimal.Integer

namespace SpatialGrammar

/-- What the command line asks for. -/
inductive Command where
  /-- Execute a document and report every iteration. -/
  | run (document : String) (seed : Option Nat) (json : Bool)
  /-- Read and validate a document. -/
  | check (document : String)
  /-- Execute a document repeatedly and compare what comes out. -/
  | torture (document : String) (runs : Nat) (seed : Option Nat)
  deriving DecidableEq, Repr

namespace Command

/-- What the arguments come to. -/
inductive Request where
  | command (c : Command)
  | version
  | help
  /-- They follow no known form. -/
  | refused
  deriving DecidableEq, Repr

/-- The subcommands. -/
inductive Subcommand where
  | run | check | torture
  deriving DecidableEq, Repr

/-- The subcommand with the given name. -/
def Subcommand.ofName? (name : String) : Option Subcommand :=
  if name = "run" then some .run
  else if name = "check" then some .check
  else if name = "torture" then some .torture
  else none

/-- What has been given to a subcommand so far. -/
structure Given where
  document : Option String
  seed : Option Nat
  runs : Option Nat
  json : Bool
  verbose : Bool
  deriving DecidableEq, Repr

/-- Nothing has been given. -/
def Given.nothing : Given := ⟨none, none, none, false, false⟩

/-- How often a document is executed for comparison where nothing is said. -/
def defaultRuns : Nat := 20

/-- The command that a subcommand with what was given comes to; it wants a document. -/
def Given.request (g : Given) (sub : Subcommand) : Request :=
  match g.document with
  | none => .refused
  | some document =>
    match sub with
    | .run => .command (.run document g.seed g.json)
    | .check => .command (.check document)
    | .torture => .command (.torture document (g.runs.getD defaultRuns) g.seed)

/-- A seed: a whole number of 64 bits. -/
def readSeed? (value : String) : Option Nat := Decimal.unsignedOfWidth? 64 value.toList

/-- A number of runs: a whole number of 32 bits, which may have a sign. -/
def readRuns? (value : String) : Option Nat :=
  match Decimal.signedOfWidth? 64 value.toList with
  | some n => if 0 ≤ n ∧ n < UInt32.size then some n.toNat else none
  | none => none

/-- Whether an argument has the form of an option. -/
def isOption (arg : List Char) : Bool := arg.head? = some '-' && arg ≠ ['-']

/-- An argument that begins with two dashes, cut at its first equals sign. -/
def splitValue (arg : List Char) : String × Option String :=
  let name := arg.takeWhile (· ≠ '=')
  (String.ofList name,
    match arg.dropWhile (· ≠ '=') with
    | [] => none
    | _ :: value => some (String.ofList value))

/-- What one argument does. -/
inductive Effect where
  /-- It is entered. -/
  | enter (g : Given)
  /-- It is entered together with the argument after it. -/
  | enterTwo (g : Given)
  /-- It settles what to do. -/
  | settle (r : Request)

/-- Enters a switch that may be given once and takes no value. -/
def switch (given : Bool) (value : Option String) (entered : Given) : Effect :=
  if given || value.isSome then .settle .refused else .enter entered

/-- Enters an option that may be given once and takes a value, from behind the equals sign or from
the next argument. -/
def valued (given : Option Nat) (value : Option String) (rest : List String)
    (read : String → Option Nat) (entered : Nat → Given) : Effect :=
  if given.isSome then .settle .refused
  else
    match value, rest with
    | some value, _ =>
      match read value with
      | some n => .enter (entered n)
      | none => .settle .refused
    | none, next :: _ =>
      if isOption next.toList then .settle .refused
      else
        match read next with
        | some n => .enterTwo (entered n)
        | none => .settle .refused
    | none, [] => .settle .refused

/-- An option written out after two dashes. -/
def longOption (sub : Subcommand) (g : Given) (name : String) (value : Option String)
    (rest : List String) : Effect :=
  if name = "help" ∧ value = none then .settle .help
  else if name = "verbose" then switch g.verbose value { g with verbose := true }
  else if name = "json" ∧ sub = .run then switch g.json value { g with json := true }
  else if name = "seed" ∧ sub ≠ .check then
    valued g.seed value rest readSeed? fun n => { g with seed := some n }
  else if name = "runs" ∧ sub = .torture then
    valued g.runs value rest readRuns? fun n => { g with runs := some n }
  else .settle .refused

/-- Letters after a single dash. -/
def shortOptions (g : Given) : List Char → Effect
  | [] => .enter g
  | c :: cs =>
    if c = 'h' then .settle .help
    else if c = 'v' ∧ !g.verbose then shortOptions { g with verbose := true } cs
    else .settle .refused

/-- The document; there is one, and its name is not empty. -/
def positional (g : Given) (arg : String) : Effect :=
  if g.document.isSome || arg = "" then .settle .refused else .enter { g with document := some arg }

/-- What an argument of a subcommand does before any two dashes. -/
def argument (sub : Subcommand) (g : Given) (arg : String) (rest : List String) : Effect :=
  match arg.toList with
  | '-' :: '-' :: cs =>
    let (name, value) := splitValue cs
    longOption sub g name value rest
  | '-' :: c :: cs => shortOptions g (c :: cs)
  | _ => positional g arg

/-- The arguments of a subcommand after two dashes. -/
def readPositionals (sub : Subcommand) : Given → List String → Request
  | g, [] => g.request sub
  | g, arg :: rest =>
    match positional g arg with
    | .enter g | .enterTwo g => readPositionals sub g rest
    | .settle r => r

/-- The arguments of a subcommand. -/
def readArguments (sub : Subcommand) : Given → List String → Request
  | g, [] => g.request sub
  | g, arg :: rest =>
    if arg = "--" then readPositionals sub g rest
    else
      match argument sub g arg rest with
      | .settle r => r
      | .enter g => readArguments sub g rest
      | .enterTwo g =>
        match rest with
        | [] => g.request sub
        | _ :: rest => readArguments sub g rest

/-- The names after which help is asked for. -/
def readHelp : List String → Request
  | [] => .help
  | [name] => if name = "help" ∨ (Subcommand.ofName? name).isSome then .help else .refused
  | _ => .refused

/-- Letters after a single dash in front of the subcommand: what they settle, or whether there was
a `v` among them. -/
def leadingLetters (verbose : Bool) : List Char → Except Request Bool
  | [] => .ok verbose
  | c :: cs =>
    if c = 'h' then .error .help
    else if c = 'V' then .error .version
    else if c = 'v' ∧ !verbose then leadingLetters true cs
    else .error .refused

/-- The arguments from the beginning; `verbose` tells whether that switch was given already. -/
def readLeading (verbose : Bool) : List String → Request
  | [] => .refused
  | arg :: rest =>
    if arg = "--help" then .help
    else if arg = "--version" then .version
    else if arg = "--verbose" then if verbose then .refused else readLeading true rest
    else if arg = "help" then readHelp rest
    else
      match Subcommand.ofName? arg, arg.toList with
      | some sub, _ => readArguments sub .nothing rest
      | none, '-' :: c :: cs =>
        match leadingLetters verbose (c :: cs) with
        | .ok verbose => readLeading verbose rest
        | .error r => r
      | none, _ => .refused

/-- What a list of arguments asks for. -/
def Request.ofArguments (args : List String) : Request := readLeading false args

end Command

end SpatialGrammar
