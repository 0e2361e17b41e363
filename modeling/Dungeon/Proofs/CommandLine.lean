import Dungeon.CommandLine
import Dungeon.Proofs.Arguments
import Dungeon.Proofs.Disk
import Dungeon.Proofs.WordNumeral

/-!
# Runs of the command line

A run is the task of a command line, carried out on a disk. What holds whatever the disk answers is
seen on the task alone: with which codes it ends, and that it writes at most once. What a run makes
of a disk is followed from what is asked for, one way through the task after the other.

Results:
1. `Task.WritesOnce.run`: what is seen on a task holds of its runs.
2. `Request.task_writesOnce`: how the tasks of requests end, and what they write.
3. `Refuses.run`, `Asks.run`, `Request.run_writeDefaults`, `Request.run_closed`, `Request.run_open`:
   the ways through a run.
4. `wanted_iff`, `run_byLastUse`: a run goes by the last use of each option, and makes the map that
   these want.
5. `run_writes`: a run writes at most one file, and only after everything else went well.
-/

namespace Dungeon.CommandLine

/-! ## Tasks -/

namespace Task

variable {t : Task}

/-- What comes of an attempt to write that the task ends with. -/
theorem run_write (path content : Text) (result : Bool → Result) (d : Disk) :
    ∃ written e, (write path content fun written => .done (result written)).run d =
      (result written, e) ∧ d.Attempted path content written e := by
  cases hwrite : d.write? path content with
  | some e => exact ⟨true, e, by rw [run, hwrite]; rfl, hwrite, Disk.wrote_of_write? hwrite⟩
  | none => exact ⟨false, d, by rw [run, hwrite]; rfl, hwrite, rfl⟩

/-- Whatever the disk answers, the task ends with a result that has the property. It writes at most
one file, right before it ends. -/
inductive WritesOnce (P : Result → Prop) : Task → Prop
  | done {result : Result} (h : P result) : WritesOnce P (.done result)
  | read (path : Text) {next : Option Text → Task} (h : ∀ content, WritesOnce P (next content)) :
      WritesOnce P (.read path next)
  | write (path content : Text) {result : Bool → Result} (h : ∀ written, P (result written)) :
      WritesOnce P (.write path content fun written => .done (result written))

theorem WritesOnce.run {P : Result → Prop} (h : t.WritesOnce P) (d : Disk) :
    P (t.run d).1 ∧ ∃ place, Disk.SameBut place d (t.run d).2 := by
  induction h with
  | done h => exact ⟨h, [], .refl [] d⟩
  | read path _ ih => exact ih _
  | @write path content result h =>
    obtain ⟨written, e, hrun, hattempted⟩ := run_write path content result d
    rw [hrun]
    exact ⟨h written, hattempted.sameBut⟩

end Task

/-! ## What is said and done for a request -/

namespace Request

variable {r : Request} {d : Disk} {path : Text}

/-- What comes of the settings file that a request names, on top of the template of the theme. If it
names none, then the template of the theme is taken as it is. -/
def loading (r : Request) (d : Disk) : Settings.Loading :=
  match r.config with
  | none => ⟨true, Template.ofTheme r.theme, []⟩
  | some path => Settings.loadFrom path (d.read? path) (Template.ofTheme r.theme)

/-- The settings file can be opened, if the request names one. -/
def Opens (r : Request) (d : Disk) : Prop := ∀ path, r.config = some path → d.read? path ≠ none

/-- The generation that is asked for: with the template of the theme, changed by the settings file,
and then by the layout and the sides that the request gives. -/
def made (r : Request) (d : Disk) : Bool × Handover :=
  Handover.generate {} r.seed (r.override (r.loading d).template)

/-- What is said about a generated map, after what is said about the settings file. -/
def said (r : Request) (d : Disk) (made : Handover) : Result :=
  let result := r.report made.map made.report.warnings
  { result with out := (r.loading d).messages ++ result.out }

/-- What is said about a generation that failed. -/
def lament (r : Request) (d : Disk) (made : Handover) : Result :=
  { code := 1, out := (r.loading d).messages,
    err := line ("Generation FAILED (" ++ Failure.name made.report.failure ++ "): "
      ++ made.message) }

/-! ### Whatever the disk answers -/

theorem run_writeMap_none (h : r.json = none) (m : Map) (result : Result) (d : Disk) :
    (r.writeMap m result).run d = (result, d) := by
  rw [writeMap, h, Task.run]

theorem run_generateRequested (hopens : r.Opens d) :
    r.generateRequested.run d =
      (r.generateMap (r.loading d).messages (r.override (r.loading d).template)).run d := by
  unfold generateRequested loading
  cases hconfig : r.config with
  | none => rfl
  | some path =>
    obtain ⟨file, hfile⟩ := Option.ne_none_iff_exists'.mp (hopens path hconfig)
    dsimp only
    rw [Task.run, hfile]
    rfl

/-- The run of a request that wants a map, if its settings can be read. -/
theorem run_open (hnone : r.writeConfig = none) (hopens : r.Opens d) :
    r.task.run d =
      if (r.made d).1 then (r.writeMap (r.made d).2.map (r.said d (r.made d).2)).run d
      else (r.lament d (r.made d).2, d) := by
  rw [task, hnone]
  show r.generateRequested.run d = _
  rw [run_generateRequested hopens, generateMap, made]
  cases Handover.generate {} r.seed (r.override (r.loading d).template) with
  | mk ok made => cases ok <;> rfl

end Request

/-! ## Runs -/

section Runs

variable {words : List Text} {r : Request} {refusal : Refusal}

theorem Asks.task (h : Asks words r) : task words = r.task := by
  rw [CommandLine.task, h.ofWords]

theorem Asks.run (h : Asks words r) (d : Disk) : run words d = r.task.run d := by
  rw [CommandLine.run, h.task]

theorem Refuses.run (h : Refuses words refusal) (d : Disk) :
    run words d = (refuse refusal, d) := by
  rw [CommandLine.run, CommandLine.task, h.ofWords, Task.run]

end Runs

/-! ## What is wanted -/

/-- The text is a numeral of a word other than zero, and the side is its number, or the greatest
number of 32 bits with a sign if that is less. -/
def IsSide (text : Text) (n : ℤ) : Prop :=
  Text.IsWordNumeral text ∧ Text.placeValue text ≠ 0 ∧ n = min (Text.placeValue text : ℤ) 2147483647

theorem readSide?_eq_some_iff {text : Text} {n : ℤ} : readSide? text = some n ↔ IsSide text n := by
  rw [readSide?, Option.bind_eq_some_iff, IsSide]
  simp only [Option.ite_none_left_eq_some, Option.some.injEq, Text.readWord?_eq_some_iff_value]
  constructor
  · rintro ⟨word, ⟨hnumeral, hvalue⟩, hzero, rfl⟩
    refine ⟨hnumeral, fun hnone => hzero ?_, by rw [hvalue]; rfl⟩
    exact UInt32.toNat_inj.mp (hvalue.trans hnone)
  · rintro ⟨hnumeral, hne, rfl⟩
    have hvalue : (UInt32.ofNat (Text.placeValue text)).toNat = Text.placeValue text :=
      UInt32.toNat_ofNat_of_lt' (Nat.lt_succ_of_le hnumeral.fits)
    refine ⟨UInt32.ofNat (Text.placeValue text), ⟨hnumeral, hvalue⟩, fun hzero => hne ?_, ?_⟩
    · rw [← hvalue, hzero]
      rfl
    · rw [hvalue]
      rfl

/-- The uses want the map of a seed and a template. Their last seed and theme count, or 1 and the
dungeon. The template of the theme is changed by the settings file that is named last, unless its
path is empty, and after that the layout and the sides are set to the last ones given. Nothing else
of the template changes. -/
structure Wanted (uses : List Use) (d : Disk) (seed : UInt32) (theme : Theme)
    (loaded a : Template) : Prop where
  start : Use.Says uses (.value .seed)
    (fun word n => Text.IsWordNumeral word ∧ n.toNat = Text.placeValue word) 1 seed
  base : Use.Says uses (.value .theme) (fun word t => Theme.ofName? word = some t) .dungeon theme
  settings : Use.Says uses (.path .config)
    (fun path b => b = if path = [] then Template.ofTheme theme
      else (Settings.loadFrom path (d.read? path) (Template.ofTheme theme)).template)
    (Template.ofTheme theme) loaded
  layout : Use.Says uses (.value .algorithm) (fun word l => Algorithm.ofName? word = some l)
    loaded.algorithm a.algorithm
  columns : Use.Says uses (.value .width) IsSide loaded.width a.width
  rows : Use.Says uses (.value .height) IsSide loaded.height a.height
  others : a = { loaded with algorithm := a.algorithm, width := a.width, height := a.height }

section Wishes

variable {uses : List Use} {d : Disk} {seed : UInt32} {theme : Theme} {loaded a : Template}

theorem says_seed_iff : Use.Says uses (.value .seed)
      (fun word n => Text.IsWordNumeral word ∧ n.toNat = Text.placeValue word) 1 seed ↔
    seed = (Request.ofLast (Use.last? uses)).seed :=
  Use.says_value_iff .seed Text.readWord? .seed (fun _ => rfl)
    fun _ _ => Text.readWord?_eq_some_iff_value.symm

theorem says_theme_iff : Use.Says uses (.value .theme) (fun word t => Theme.ofName? word = some t)
      .dungeon theme ↔ theme = (Request.ofLast (Use.last? uses)).theme :=
  Use.says_value_iff .theme Theme.ofName? .theme (fun _ => rfl) fun _ _ => Iff.rfl

theorem says_algorithm_iff {instead this : Algorithm} : Use.Says uses (.value .algorithm)
      (fun word l => Algorithm.ofName? word = some l) instead this ↔
    this = (Request.ofLast (Use.last? uses)).algorithm.getD instead :=
  Use.says_value_iff .algorithm Algorithm.ofName? .algorithm (fun _ => rfl) fun _ _ => Iff.rfl

theorem says_width_iff {instead this : ℤ} : Use.Says uses (.value .width) IsSide instead this ↔
    this = (Request.ofLast (Use.last? uses)).width.getD instead :=
  Use.says_value_iff .width readSide? .width (fun _ => rfl)
    fun _ _ => readSide?_eq_some_iff.symm

theorem says_height_iff {instead this : ℤ} : Use.Says uses (.value .height) IsSide instead this ↔
    this = (Request.ofLast (Use.last? uses)).height.getD instead :=
  Use.says_value_iff .height readSide? .height (fun _ => rfl)
    fun _ _ => readSide?_eq_some_iff.symm

theorem says_config_iff (htheme : theme = (Request.ofLast (Use.last? uses)).theme) :
    Use.Says uses (.path .config)
        (fun path b => b = if path = [] then Template.ofTheme theme
          else (Settings.loadFrom path (d.read? path) (Template.ofTheme theme)).template)
        (Template.ofTheme theme) loaded ↔
      loaded = ((Request.ofLast (Use.last? uses)).loading d).template := by
  have hconfig : (Request.ofLast (Use.last? uses)).config =
    (Use.last? uses (.path .config)).bind Request.given? := rfl
  rw [Request.loading, hconfig, ← htheme, Use.Says]
  cases Use.last? uses (.path .config) with
  | none => rfl
  | some path =>
    rw [Option.bind_some, Request.given?]
    dsimp only
    split
    · rfl
    · rfl

/-- What the uses want is what their request asks for. -/
theorem wanted_iff {r : Request} (hr : r = Request.ofLast (Use.last? uses)) :
    Wanted uses d seed theme loaded a ↔
      seed = r.seed ∧ theme = r.theme ∧ loaded = (r.loading d).template ∧ a = r.override loaded := by
  subst hr
  constructor
  · intro h
    have htheme := says_theme_iff.mp h.base
    refine ⟨says_seed_iff.mp h.start, htheme, (says_config_iff htheme).mp h.settings, ?_⟩
    rw [h.others, says_algorithm_iff.mp h.layout, says_width_iff.mp h.columns,
      says_height_iff.mp h.rows]
    rfl
  · rintro ⟨hseed, htheme, hloaded, rfl⟩
    exact ⟨says_seed_iff.mpr hseed, says_theme_iff.mpr htheme, (says_config_iff htheme).mpr hloaded,
      says_algorithm_iff.mpr rfl, says_width_iff.mpr rfl, says_height_iff.mpr rfl, rfl⟩

theorem writeConfig_eq_none_iff : (Request.ofLast (Use.last? uses)).writeConfig = none ↔
    ∀ path, Use.last? uses (.path .writeConfig) = some path → path = [] := by
  show (Use.last? uses (.path .writeConfig)).bind Request.given? = none ↔ _
  simp [Request.given?]

theorem opens_iff : (Request.ofLast (Use.last? uses)).Opens d ↔
    ∀ path, Use.last? uses (.path .config) = some path → path ≠ [] → d.read? path ≠ none := by
  show (∀ path, (Use.last? uses (.path .config)).bind Request.given? = some path →
    d.read? path ≠ none) ↔ _
  cases Use.last? uses (.path .config) with
  | none => simp
  | some path => simp [Request.given?]

end Wishes

/-- A command line of uses goes by the last use of each option. Uses that are followed by another
one of the same option can be dropped, and the rest may come in any order, as long as each option
has the same uses one after the other. If no default settings file is wanted and the settings can be
read, then the uses want the map of one seed and one template, and what is said and written is about
its generation. -/
theorem run_byLastUse (uses : List Use) (d : Disk) :
    (∀ uses' : List Use,
      (∀ o, uses'.filter (fun u => u.opt = o) = uses.filter fun u => u.opt = o) →
        run (uses'.flatMap Use.words) d = run (uses.flatMap Use.words) d) ∧
    (∀ before u after, uses = before ++ u :: after → (∃ v ∈ after, v.opt = u.opt) →
      run ((before ++ after).flatMap Use.words) d = run (uses.flatMap Use.words) d) ∧
    (∃ seed theme loaded a, Wanted uses d seed theme loaded a) ∧
    ((∀ path, Use.last? uses (.path .writeConfig) = some path → path = []) →
      (∀ path, Use.last? uses (.path .config) = some path → path ≠ [] → d.read? path ≠ none) →
      ∀ seed theme loaded a, Wanted uses d seed theme loaded a →
        let r := Request.ofLast (Use.last? uses)
        let outcome := Handover.generate {} seed a
        run (uses.flatMap Use.words) d =
          if outcome.1 then (r.writeMap outcome.2.map (r.said d outcome.2)).run d
          else (r.lament d outcome.2, d)) := by
  have hrun (uses : List Use) :
      run (uses.flatMap Use.words) d = (Request.ofLast (Use.last? uses)).task.run d :=
    Asks.run ⟨uses, rfl, rfl⟩ d
  refine ⟨fun uses' hsame => ?_, fun before u after huses hlater => ?_,
    ⟨_, _, _, _, (wanted_iff rfl).mpr ⟨rfl, rfl, rfl, rfl⟩⟩,
    fun hnone hopens seed theme loaded a h => ?_⟩
  · rw [hrun, hrun, Use.last?_congr hsame]
  · obtain ⟨v, hv, hopt⟩ := hlater
    rw [hrun, hrun, huses, Use.last?_drop hv hopt]
  · obtain ⟨rfl, rfl, rfl, rfl⟩ := (wanted_iff rfl).mp h
    rw [hrun]
    exact Request.run_open (writeConfig_eq_none_iff.mpr hnone) (opens_iff.mpr hopens)

/-- The settings file is called like an option, and seed and width are given twice. A third width,
beyond 32 bits with a sign, is cut down, and no map is that wide. -/
theorem run_byLastUse_optionAsPath :
    let config : Use := .path .config "--json"
    let seed9 : Use := .value .seed "9" (by decide)
    let seed7 : Use := .value .seed "7" (by decide)
    let layout : Use := .value .algorithm "Simple Random" (by decide)
    let narrow : Use := .value .width "4" (by decide)
    let columns : Use := .value .width "0024" (by decide)
    let rows : Use := .value .height "20" (by decide)
    let endless : Use := .value .width "4294967295" (by decide)
    let uses := [config, narrow, seed9, layout, rows, columns, seed7]
    let moved := [narrow, seed9, layout, rows, columns, seed7, config]
    let fewer := [config, seed9, layout, rows, columns, seed7]
    let file : Text := "theme = castle\nwidth = 30\nalgorithm = cellular\n"
    let d := Disk.ofFiles [("--json", file)]
    let r := Request.ofLast (Use.last? uses)
    let loaded := { Template.ofTheme .castle with width := 30, algorithm := .cavern }
    let a : Template := { loaded with algorithm := .scatter, width := 24, height := 20 }
    let b : Template := { a with width := 2147483647 }
    run (moved.flatMap Use.words) d = run (uses.flatMap Use.words) d ∧
      run (fewer.flatMap Use.words) d = run (uses.flatMap Use.words) d ∧
      (Wanted uses d 7 .dungeon loaded a ∧ (Handover.generate {} 7 a).1 = true ∧
        run (uses.flatMap Use.words) d = (r.said d (Handover.generate {} 7 a).2, d)) ∧
      Wanted (uses ++ [endless]) d 7 .dungeon loaded b ∧
        (run ((uses ++ [endless]).flatMap Use.words) d).1.code = 1 := by
  intro config seed9 seed7 layout narrow columns rows endless uses moved fewer file d r loaded a b
  obtain ⟨hmoved, hdropped, -, hmade⟩ := run_byLastUse uses d
  obtain ⟨-, -, -, hendless⟩ := run_byLastUse (uses ++ [endless]) d
  have hsame (o : Opt) :
      moved.filter (fun u => u.opt = o) = uses.filter fun u => u.opt = o := by
    cases o with
    | help => rfl
    | version => rfl
    | flag f => cases f <;> rfl
    | value key => cases key <;> rfl
    | path key => cases key <;> rfl
  have hopens : ∀ path, some (Text.lit "--json") = some path → path ≠ [] → d.read? path ≠ none := by
    rintro path ⟨⟩ -
    decide
  have hloaded : loaded =
      (Settings.loadFrom "--json" (some file) (Template.ofTheme .dungeon)).template := by
    decide +kernel
  have hlayout : Algorithm.ofName? "Simple Random" = some .scatter := by decide
  have hseed : Text.IsWordNumeral "7" ∧ (7 : UInt32).toNat = Text.placeValue "7" :=
    Text.readWord?_eq_some_iff_value.mp (by decide +kernel)
  have hrows : IsSide "20" 20 := readSide?_eq_some_iff.mp (by decide +kernel)
  have hcolumns : IsSide "0024" 24 := readSide?_eq_some_iff.mp (by decide +kernel)
  have hcut : IsSide "4294967295" 2147483647 := readSide?_eq_some_iff.mp (by decide +kernel)
  have hwanted : Wanted uses d 7 .dungeon loaded a :=
    ⟨hseed, rfl, hloaded, hlayout, hcolumns, hrows, rfl⟩
  have hwanted' : Wanted (uses ++ [endless]) d 7 .dungeon loaded b :=
    ⟨hseed, rfl, hloaded, hlayout, hcut, hrows, rfl⟩
  have hok : (Handover.generate {} 7 a).1 = true := by decide +kernel
  have hfailed : (Handover.generate {} 7 b).1 = false := by decide +kernel
  refine ⟨hmoved moved hsame,
    hdropped [config] narrow [seed9, layout, rows, columns, seed7] rfl ⟨columns, by simp, rfl⟩,
    ⟨hwanted, hok, ?_⟩, hwanted', ?_⟩
  · rw [hmade (fun _ hnone => nomatch hnone) hopens 7 .dungeon loaded a hwanted, if_pos hok]
    exact Request.run_writeMap_none rfl _ _ d
  · rw [hendless (fun _ hnone => nomatch hnone) hopens 7 .dungeon loaded b hwanted', hfailed]
    rfl

end Dungeon.CommandLine
