import Dungeon.Audit
import Dungeon.CommandLine.Request
import Dungeon.CommandLine.Task
import Dungeon.Export.Json
import Dungeon.Export.Picture
import Dungeon.Generate
import Dungeon.Quest
import Dungeon.Template.Settings

/-!
# The command line

A command line asks for help, for the version, for the default settings file, or for a map. What it
does is a task. At most one file is written, and only after everything else that can fail. The exit
code is 2 for a faulty command line, 1 for a run that failed and 0 otherwise.

A write fails only where the file cannot be opened, so there is no message about one that breaks
off.
-/

namespace Dungeon.CommandLine

/-! ## Texts -/

def programName : Text := "delvegen"

def versionLine : Text := "DelveGen 0.1.0\n"

def usage : Text :=
  "Usage:\n  " ++ programName ++ " [options]\n\n" ++ ([
    "Options:\n",
    "  --seed <n>              Generation seed (0..4294967295). Default: 1.\n",
    "  --theme <id>            Theme: dungeon, cave, forest, ruins, castle, temple,\n",
    "                          sewers, underground_city. Default: dungeon.\n",
    "  --algorithm <id>        Override the layout: bsp, cellular, simple_random.\n",
    "  --width <n>             Override the map width (8..512).\n",
    "  --height <n>            Override the map height (8..512).\n",
    "  --config <path>         Area template INI to load (applied after --theme).\n",
    "  --write-config <path>   Write a commented default template INI and exit.\n",
    "  --json <path>           Write the generated map as JSON.\n",
    "  --ascii                 Print the map as text.\n",
    "  --describe              Print area, room, encounter and quest text.\n",
    "  --check                 Verify layout invariants of the generated map.\n",
    "  --version               Print version.\n",
    "  --help                  Show this help.\n"] : List Text).flatten

/-- A line of text. -/
def line (t : Text) : Text := t ++ [Text.newline]

/-- The line about a generated map as a whole. -/
def summary (m : Map) : Text :=
  line ("Generated " ++ m.area.name ++ " [" ++ m.area.theme.info.id ++ "/" ++ m.area.algorithm.id
    ++ "] seed=" ++ Text.ofNat m.seed.toNat ++ " size=" ++ sizeText m.grid.width m.grid.height
    ++ " rooms=" ++ Text.ofNat m.rooms.length ++ " corridors=" ++ Text.ofNat m.corridors.length
    ++ " floor=" ++ Text.ofNat m.grid.floorCount)

def warningLine (w : Warning) : Text := line ("  warning " ++ w.kind.name ++ ": " ++ w.message)

def roomLine (m : Map) (r : Room) : Text :=
  line ("  [" ++ Text.ofInt r.id ++ "] " ++ r.kind.tag ++ ": " ++ m.describeRoom r)

def encounterLine (e : Encounter) : Text :=
  line ("  room " ++ Text.ofInt e.roomId ++ " " ++ e.kind.tag ++ " difficulty="
    ++ e.difficulty.toText)

def questLine (q : Quest) : Text :=
  line ("Quest: " ++ q.title ++ " (difficulty " ++ Text.ofInt q.difficulty ++ ", reward "
    ++ Text.ofInt q.reward ++ ", " ++ q.location ++ ")")

/-- The encounters under their heading, if there are any. -/
def encounterPart (m : Map) : Text :=
  match m.encounters with
  | [] => []
  | e :: more => "Encounters:\n" ++ (e :: more).flatMap encounterLine

/-- The description of a map, its rooms, its encounters and its quest. -/
def description (m : Map) : Text :=
  line m.describeArea ++ m.rooms.flatMap (roomLine m) ++ encounterPart m ++ questLine m.quest

/-- The line about whether a map passed its audit. -/
def checkLine (passed : Bool) (message : Text) : Text :=
  if passed then line "Check OK" else line ("Check FAILED: " ++ message)

/-! ## Runs -/

/-- What is said instead of running. -/
def refuse : Refusal → Result
  | .help => { out := usage }
  | .version => { out := versionLine }
  | .fault f => { code := 2, out := if f.showsUsage then usage else [], err := line f.message }

namespace Request

/-- Writes the default settings file. -/
def writeDefaults (path : Text) : Task :=
  .write path Settings.defaultFile fun written =>
    .done (if written then { out := line ("Wrote template: " ++ Path.shown path) }
      else { code := 1, err := line ("Failed to write template: " ++ Path.shown path) })

/-- A template with what the request asks for in particular. -/
def override (r : Request) (a : Template) : Template :=
  { a with algorithm := r.algorithm.getD a.algorithm, width := r.width.getD a.width,
           height := r.height.getD a.height }

/-- What is printed about a generated map, and the exit code, which tells of the check. -/
def report (r : Request) (m : Map) (warnings : List Warning) : Result :=
  let (passed, message) := m.check m.area.padding []
  { code := if r.check && !passed then 1 else 0,
    out := summary m ++ warnings.flatMap warningLine
      ++ (if r.check then checkLine passed message else [])
      ++ (if r.picture then m.picture else []) ++ if r.describe then description m else [] }

/-- Writes a map if the request asks for it, and ends with what is said about that after a
result. -/
def writeMap (r : Request) (m : Map) (result : Result) : Task :=
  match r.json with
  | none => .done result
  | some path =>
      .write path (Json.ofMap m) fun written =>
        .done (if written then
            { result with out := result.out ++ line ("Wrote JSON: " ++ Path.shown path) }
          else
            { result with code := 1,
                          err := line ("Failed to open JSON output for writing: "
                            ++ Path.shown path) })

/-- Generates a map from a template, after some text. -/
def generateMap (r : Request) (before : Text) (a : Template) : Task :=
  let (ok, made) := Handover.generate {} r.seed a
  if ok then
    let result := r.report made.map made.report.warnings
    r.writeMap made.map { result with out := before ++ result.out }
  else
    .done { code := 1, out := before,
            err := line ("Generation FAILED (" ++ Failure.name made.report.failure ++ "): "
              ++ made.message) }

/-- Generates the map that the request asks for, loading the settings file first. -/
def generateRequested (r : Request) : Task :=
  let start := Template.ofTheme r.theme
  match r.config with
  | none => r.generateMap [] (r.override start)
  | some path =>
      .read path fun read =>
        let loading := Settings.loadFrom path read start
        if loading.opened then r.generateMap loading.messages (r.override loading.template)
        else
          .done { code := 1,
                  err := line ("Failed to load template: " ++ Path.shown path)
                    ++ line loading.messages }

/-- What the request asks to do. -/
def task (r : Request) : Task :=
  match r.writeConfig with
  | some path => writeDefaults path
  | none => r.generateRequested

end Request

/-- What a command line asks to do. -/
def task (words : List Text) : Task :=
  match Request.ofWords words with
  | .error refusal => .done (refuse refusal)
  | .ok request => request.task

/-- Runs a command line on a disk. -/
def run (words : List Text) (d : Disk) : Result × Disk := (task words).run d

end Dungeon.CommandLine
