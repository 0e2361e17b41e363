import Dungeon.Text.Decimal
import Dungeon.Theme

/-!
# Reading command lines

A command line is a list of words. Reading it gives the choices it makes, in order, or the first
reason not to run: a wish for help or for the version, or a fault. The choices together make a
request. Of two choices of one kind the later one holds, and choices of different kinds do not touch
each other.
-/

namespace Dungeon.CommandLine

/-! ## Options -/

/-- The options that stand alone. -/
inductive Flag where
  | picture
  | describe
  | check
  deriving DecidableEq, Repr

/-- The options before a value, which may be acceptable or not. -/
inductive ValueKey where
  | seed
  | theme
  | algorithm
  | width
  | height
  deriving DecidableEq, Repr

/-- The options before a path. -/
inductive PathKey where
  | config
  | writeConfig
  | json
  deriving DecidableEq, Repr

/-- What a word means where an option is expected. -/
inductive Opt where
  | help
  | version
  | flag (f : Flag)
  | value (key : ValueKey)
  | path (key : PathKey)
  deriving DecidableEq, Repr

def Flag.name : Flag → Text
  | picture => "--ascii"
  | describe => "--describe"
  | check => "--check"

def ValueKey.name : ValueKey → Text
  | seed => "--seed"
  | theme => "--theme"
  | algorithm => "--algorithm"
  | width => "--width"
  | height => "--height"

def PathKey.name : PathKey → Text
  | config => "--config"
  | writeConfig => "--write-config"
  | json => "--json"

def Flag.all : List Flag := [picture, describe, check]

def ValueKey.all : List ValueKey := [seed, theme, algorithm, width, height]

def PathKey.all : List PathKey := [config, writeConfig, json]

/-- The wishes for words about the program. -/
def Opt.wishes : List (Text × Opt) :=
  [("--help", .help), ("-h", .help), ("--version", .version), ("-v", .version)]

/-- The options with the words for them. -/
def Opt.words : List (Text × Opt) :=
  Opt.wishes ++ ValueKey.all.map (fun key => (key.name, .value key))
    ++ PathKey.all.map (fun key => (key.name, .path key))
    ++ Flag.all.map (fun f => (f.name, .flag f))

/-- The option that a word means. -/
def Opt.ofWord? (word : Text) : Option Opt := Opt.words.lookup word

/-! ## Choices -/

/-- One thing that a command line settles. -/
inductive Choice where
  | seed (seed : UInt32)
  | theme (t : Theme)
  | algorithm (l : Algorithm)
  | width (n : Int)
  | height (n : Int)
  | path (key : PathKey) (path : Text)
  | flag (f : Flag)
  deriving DecidableEq, Repr

/-- The greatest side that can be asked for; greater ones are cut down to it. -/
def greatestSide : Int := 2147483647

/-- Reads the side of a map. Zero is none. -/
def readSide? (value : Text) : Option Int :=
  (Text.readWord? value).bind fun n => if n = 0 then none else some (min n.toNat greatestSide)

/-- The choice that a value after an option makes, if the value is acceptable. -/
def ValueKey.read? (value : Text) : ValueKey → Option Choice
  | seed => (Text.readWord? value).map .seed
  | theme => (Theme.ofName? value).map .theme
  | algorithm => (Algorithm.ofName? value).map .algorithm
  | width => (readSide? value).map .width
  | height => (readSide? value).map .height

/-- What is wrong with a command line. -/
inductive UsageFault where
  | unknown (word : Text)
  | missingValue (key : ValueKey)
  | missingPath (key : PathKey)
  | unacceptable (key : ValueKey) (value : Text)
  deriving DecidableEq, Repr

namespace UsageFault

def message : UsageFault → Text
  | unknown word => "Unknown arg: " ++ word
  | missingValue key => key.name ++ " requires a value"
  | missingPath key => key.name ++ " requires a path"
  | unacceptable .theme value => "Unknown theme: " ++ value
  | unacceptable .algorithm value => "Unknown algorithm: " ++ value
  | unacceptable key value => "Invalid " ++ key.name ++ ": " ++ value

/-- The usage is shown along with the message. -/
def showsUsage : UsageFault → Bool
  | unknown _ => true
  | _ => false

end UsageFault

/-- Why nothing is run. -/
inductive Refusal where
  | help
  | version
  | fault (f : UsageFault)
  deriving DecidableEq, Repr

/-- The choices of a command line, or the first reason not to run. -/
def choices : List Text → Except Refusal (List Choice)
  | [] => .ok []
  | word :: rest =>
      match Opt.ofWord? word with
      | none => .error (.fault (.unknown word))
      | some .help => .error .help
      | some .version => .error .version
      | some (.flag f) => (choices rest).map fun more => .flag f :: more
      | some (.value key) =>
          match rest with
          | [] => .error (.fault (.missingValue key))
          | value :: rest =>
              match key.read? value with
              | none => .error (.fault (.unacceptable key value))
              | some choice => (choices rest).map fun more => choice :: more
      | some (.path key) =>
          match rest with
          | [] => .error (.fault (.missingPath key))
          | path :: rest => (choices rest).map fun more => .path key path :: more

/-! ## Requests -/

/-- What a command line asks for. -/
structure Request where
  seed : UInt32 := 1
  theme : Theme := .dungeon
  algorithm : Option Algorithm := none
  width : Option Int := none
  height : Option Int := none
  /-- The settings file to load. -/
  config : Option Text := none
  /-- Where to write the default settings file instead of generating a map. -/
  writeConfig : Option Text := none
  /-- Where to write the map. -/
  json : Option Text := none
  picture : Bool := false
  describe : Bool := false
  check : Bool := false
  deriving DecidableEq, Repr

namespace Request

/-- A path that is given. The empty path is as good as none. -/
def given? (path : Text) : Option Text := if path = [] then none else some path

/-- The request with one more choice made. -/
def choose (r : Request) : Choice → Request
  | .seed seed => { r with seed }
  | .theme theme => { r with theme }
  | .algorithm l => { r with algorithm := some l }
  | .width n => { r with width := some n }
  | .height n => { r with height := some n }
  | .path .config path => { r with config := given? path }
  | .path .writeConfig path => { r with writeConfig := given? path }
  | .path .json path => { r with json := given? path }
  | .flag .picture => { r with picture := true }
  | .flag .describe => { r with describe := true }
  | .flag .check => { r with check := true }

/-- The request that choices make, one after the other. -/
def ofChoices (choices : List Choice) : Request := choices.foldl choose {}

/-- The request of a command line, or the reason not to run. -/
def ofWords (words : List Text) : Except Refusal Request := (choices words).map ofChoices

end Request
end Dungeon.CommandLine
