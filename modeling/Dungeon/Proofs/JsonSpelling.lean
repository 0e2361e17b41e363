import Dungeon.Proofs.JsonReader

/-!
# Spelling JSON

What a reader makes of a text is said here of its pieces. `Lexes` is about the tokens that a text
has wherever it stands, `Parses` about the value that some tokens are wherever they stand, and
`Spells` joins the two. Each of them holds of a whole if it holds of the parts, so a printer is
followed piece by piece and the reader is not looked at again.

Results:
1. `Json.Lexes.append`, `Json.LexesWord.followed`: the tokens of a text are those of its pieces.
   Only a word depends on what comes after it.
2. `Json.Spells.array`, `Json.Spells.object`: separated items between brackets are read as an array
   or an object, whatever the blanks between them.
3. `Json.Spells.read?_eq`: what is spelled is read.
-/

namespace Dungeon.Json

open Text (byte)

/-! ## Reading tokens back -/

theorem tokens?_space {c : UInt8} (h : isSpace c = true) (rest : Text) :
    tokens? (c :: rest) = tokens? rest := by
  rw [tokens?, if_pos h]

theorem isSpace_of_sign? {c : UInt8} {token : Token} (h : sign? c = some token) :
    isSpace c = false := by
  have hsign : (sign? c).isSome = true := by rw [h, Option.isSome_some]
  have hne : ∀ d, (sign? d).isSome = false → c ≠ d := fun d =>
    ne_of_class (p := fun c => (sign? c).isSome) hsign
  simp only [isSpace, Bool.or_eq_false_iff, beq_eq_false_iff_ne]
  exact ⟨⟨⟨hne _ (by decide), hne _ (by decide)⟩, hne _ (by decide)⟩, hne _ (by decide)⟩

theorem tokens?_sign {c : UInt8} {token : Token} (h : sign? c = some token) (rest : Text) :
    tokens? (c :: rest) = (tokens? rest).map (token :: ·) := by
  have hquote : c ≠ quote := by
    rintro rfl
    cases h
  rw [tokens?, if_neg (ne_true_of_eq_false (isSpace_of_sign? h)), if_neg hquote, h]

theorem tokens?_quoted (t rest : Text) :
    tokens? (quoted t ++ rest) = (tokens? rest).map (.scalar (.string t) :: ·) := by
  show tokens? (quote :: (escape t ++ [quote] ++ rest)) = _
  have hbody : body? (escape t ++ [quote] ++ rest) = some (escape t, rest) := by
    rw [List.append_assoc]
    exact body?_escape t rest
  rw [tokens?, if_neg (by decide), if_pos rfl]
  split
  · next hnone =>
    rw [hbody] at hnone
    cases hnone
  · next inside after hsome =>
    rw [hbody] at hsome
    cases hsome
    rw [unescape?_escape, Option.bind_some]

theorem tokens?_word {t rest : Text} {v : Value} (hne : t ≠ []) (hword : ∀ c ∈ t, isWord c = true)
    (hread : word? t = some v) (hrest : ∀ c ∈ rest.head?, isWord c = false) :
    tokens? (t ++ rest) = (tokens? rest).map (.scalar v :: ·) := by
  cases t with
  | nil => exact absurd rfl hne
  | cons c t =>
    have hc := hword c List.mem_cons_self
    simp only [isWord, Bool.and_eq_true, Bool.not_eq_true', Option.isNone_iff_eq_none,
      bne_iff_ne] at hc
    have hall : ∀ c ∈ t, isWord c = true := fun c hc => hword c (List.mem_cons_of_mem _ hc)
    rw [List.cons_append, tokens?, if_neg (ne_true_of_eq_false hc.1.1), if_neg hc.2, hc.1.2]
    dsimp only
    rw [Text.takeWhile_stop hall hrest, Text.dropWhile_stop hall hrest, hread, Option.bind_some]

/-! ## Texts and their tokens -/

/-- The text has these tokens, whatever comes after it. -/
def Lexes (t : Text) (ts : List Token) : Prop :=
  ∀ rest, tokens? (t ++ rest) = (tokens? rest).map (ts ++ ·)

/-- No word goes on at the front of the text. -/
def Ends (t : Text) : Prop := ∀ c ∈ t.head?, isWord c = false

/-- The text has these tokens, if no word goes on after it. -/
def LexesWord (t : Text) (ts : List Token) : Prop :=
  ∀ rest, Ends rest → tokens? (t ++ rest) = (tokens? rest).map (ts ++ ·)

variable {s t : Text} {ss ts : List Token}

theorem Lexes.nil : Lexes [] [] := by
  intro rest
  cases h : tokens? rest <;> simp only [List.nil_append, h] <;> rfl

theorem tokens?_append {rest : Text}
    (hs : tokens? (s ++ (t ++ rest)) = (tokens? (t ++ rest)).map (ss ++ ·))
    (ht : tokens? (t ++ rest) = (tokens? rest).map (ts ++ ·)) :
    tokens? (s ++ t ++ rest) = (tokens? rest).map (ss ++ ts ++ ·) := by
  rw [List.append_assoc, hs, ht, Option.map_map]
  exact congrArg (Option.map · _) (funext fun _ => (List.append_assoc ..).symm)

theorem Lexes.append (hs : Lexes s ss) (ht : Lexes t ts) : Lexes (s ++ t) (ss ++ ts) :=
  fun rest => tokens?_append (hs _) (ht rest)

theorem Lexes.flatMap {α : Type} {print : α → Text} {tokens : α → List Token} {l : List α}
    (h : ∀ a ∈ l, Lexes (print a) (tokens a)) : Lexes (l.flatMap print) (l.flatMap tokens) := by
  induction l with
  | nil => exact Lexes.nil
  | cons a l ih =>
    rw [List.flatMap_cons, List.flatMap_cons]
    exact (h a List.mem_cons_self).append (ih fun b hb => h b (List.mem_cons_of_mem a hb))

theorem Lexes.lexesWord (h : Lexes t ts) : LexesWord t ts := fun rest _ => h rest

theorem Lexes.before (hs : Lexes s ss) (ht : LexesWord t ts) : LexesWord (s ++ t) (ss ++ ts) :=
  fun rest hrest => tokens?_append (hs _) (ht rest hrest)

/-- A word ends where other tokens begin. -/
theorem LexesWord.followed (hs : LexesWord s ss) (ht : Lexes t ts) (hne : t ≠ [])
    (hends : Ends t) : Lexes (s ++ t) (ss ++ ts) := by
  intro rest
  have hrest : Ends (t ++ rest) := by
    rw [Ends, List.head?_append_of_ne_nil t hne]
    exact hends
  exact tokens?_append (hs _ hrest) (ht rest)

theorem filterMap_blanks (h : ∀ c ∈ t, isSpace c = true) : t.filterMap sign? = [] := by
  rw [List.filterMap_eq_nil_iff]
  intro c hc
  cases hsign : sign? c with
  | none => rfl
  | some token =>
    have hspace := h c hc
    rw [isSpace_of_sign? hsign] at hspace
    cases hspace

/-- The byte is a sign or stands between signs. -/
def isLayout (c : UInt8) : Bool := isSpace c || (sign? c).isSome

/-- Signs with blanks between them. -/
theorem Lexes.signs (h : ∀ c ∈ t, isLayout c = true) : Lexes t (t.filterMap sign?) := by
  induction t with
  | nil => exact Lexes.nil
  | cons c t ih =>
    have ht := ih fun d hd => h d (List.mem_cons_of_mem c hd)
    intro rest
    cases hsign : sign? c with
    | none =>
      have hspace : isSpace c = true := by
        have hc := h c List.mem_cons_self
        rw [isLayout, hsign] at hc
        exact (Bool.or_false _).symm.trans hc
      rw [List.cons_append, tokens?_space hspace, ht, List.filterMap_cons_none hsign]
    | some token =>
      rw [List.cons_append, tokens?_sign hsign, ht, List.filterMap_cons_some hsign,
        Option.map_map]
      rfl

theorem Lexes.quoted (t : Text) : Lexes (quoted t) [.scalar (.string t)] := tokens?_quoted t

theorem LexesWord.number {x : Rat} (h : number? t = some x) :
    LexesWord t [.scalar (.number x)] := by
  obtain ⟨hne, hnumeral⟩ := made_of_number? h
  have hname : ∀ name : Text, name.all isNumeral = false → t ≠ name := by
    rintro name hfalse rfl
    rw [List.all_eq_true.mpr hnumeral] at hfalse
    cases hfalse
  have hread : word? t = some (.number x) := by
    rw [word?, if_neg (hname _ (by decide)), if_neg (hname _ (by decide)),
      if_neg (hname _ (by decide)), h, Option.map_some]
  intro rest hrest
  exact tokens?_word hne (fun c hc => isWord_of_isNumeral (hnumeral c hc)) hread hrest

/-- A sign with blanks around it. -/
structure Mark (t : Text) (token : Token) : Prop where
  layout : t.all isLayout = true
  tokens : t.filterMap sign? = [token]

theorem isLayout_of_isSpace {c : UInt8} (h : isSpace c = true) : isLayout c = true := by
  rw [isLayout, h, Bool.true_or]

namespace Mark

variable {token : Token}

theorem lexes (h : Mark t token) : Lexes t [token] :=
  h.tokens ▸ Lexes.signs (List.all_eq_true.mp h.layout)

theorem ne_nil (h : Mark t token) : t ≠ [] := by
  rintro rfl
  cases h.tokens

theorem ends (h : Mark t token) : Ends t := by
  intro c hc
  rcases Bool.or_eq_true_iff.mp (List.all_eq_true.mp h.layout c (List.mem_of_mem_head? hc)) with
    hspace | hsign
  · rw [isWord, hspace]
    rfl
  · rw [isWord, Option.isNone_eq_false_iff.mpr hsign, Bool.and_false, Bool.false_and]

theorem append_blanks (h : Mark t token) (hs : ∀ c ∈ s, isSpace c = true) :
    Mark (t ++ s) token where
  layout := by
    rw [List.all_append, h.layout]
    exact List.all_eq_true.mpr fun c hc => isLayout_of_isSpace (hs c hc)
  tokens := by rw [List.filterMap_append, h.tokens, filterMap_blanks hs, List.append_nil]

theorem blanks_append (h : Mark t token) (hs : ∀ c ∈ s, isSpace c = true) :
    Mark (s ++ t) token where
  layout := by
    rw [List.all_append, h.layout, Bool.and_true]
    exact List.all_eq_true.mpr fun c hc => isLayout_of_isSpace (hs c hc)
  tokens := by rw [List.filterMap_append, h.tokens, filterMap_blanks hs, List.nil_append]

end Mark

/-! ## Reading values back -/

/-- The tokens are this value, whatever comes after them. -/
def Parses (ts : List Token) (v : Value) : Prop :=
  ∀ fuel rest, ts.length ≤ fuel → value? fuel (ts ++ rest) = some (v, rest)

/-- The tokens are a member of an object. -/
def ParsesMember (ts : List Token) (m : Text × Value) : Prop :=
  ∃ vs, ts = .scalar (.string m.1) :: .colon :: vs ∧ Parses vs m.2

/-- Items with commas between them. -/
def separated : List (List Token) → List Token
  | [] => []
  | [last] => last
  | first :: rest => first ++ .comma :: separated rest

theorem separated_cons_cons (first second : List Token) (rest : List (List Token)) :
    separated (first :: second :: rest) = first ++ .comma :: separated (second :: rest) := rfl

theorem Parses.scalar (v : Value) : Parses [.scalar v] v := by
  intro fuel rest hfuel
  cases fuel with
  | zero => cases hfuel
  | succ fuel => rfl

/-- No value starts with the end of an array. -/
theorem Parses.ne_endArray {v : Value} (h : Parses ts v) (rest more : List Token) :
    ts ++ more ≠ .endArray :: rest := by
  intro heq
  have hvalue := h (ts.length + 1) more (Nat.le_succ _)
  rw [heq] at hvalue
  cases hvalue

theorem items?_last {fuel : Nat} {v : Value} {rest : List Token}
    (h : value? fuel ts = some (v, .endArray :: rest)) :
    items? (fuel + 1) ts = some ([v], rest) := by
  rw [items?, h]
  rfl

theorem items?_more {fuel : Nat} {v : Value} {vs : List Value} {more rest : List Token}
    (h : value? fuel ts = some (v, .comma :: more)) (hmore : items? fuel more = some (vs, rest)) :
    items? (fuel + 1) ts = some (v :: vs, rest) := by
  rw [items?, h, Option.bind_some]
  dsimp only
  rw [hmore]
  rfl

theorem members?_last {fuel : Nat} {key : Text} {v : Value} {rest : List Token}
    (h : value? fuel ts = some (v, .endObject :: rest)) :
    members? (fuel + 1) (.scalar (.string key) :: .colon :: ts) = some ([(key, v)], rest) := by
  rw [members?, h]
  rfl

theorem members?_more {fuel : Nat} {key : Text} {v : Value} {ms : List (Text × Value)}
    {more rest : List Token} (h : value? fuel ts = some (v, .comma :: more))
    (hmore : members? fuel more = some (ms, rest)) :
    members? (fuel + 1) (.scalar (.string key) :: .colon :: ts) = some ((key, v) :: ms, rest) := by
  rw [members?, h, Option.bind_some]
  dsimp only
  rw [hmore]
  rfl

theorem value?_array {fuel : Nat} {vs : List Value} {rest : List Token}
    (hne : ∀ more, ts ≠ .endArray :: more) (h : items? fuel ts = some (vs, rest)) :
    value? (fuel + 1) (.beginArray :: ts) = some (.array vs, rest) := by
  rw [value?, h]
  · rfl
  · exact hne

theorem value?_object {fuel : Nat} {ms : List (Text × Value)} {rest : List Token}
    (hne : ∀ more, ts ≠ .endObject :: more) (h : members? fuel ts = some (ms, rest)) :
    value? (fuel + 1) (.beginObject :: ts) = some (.object ms, rest) := by
  rw [value?, h]
  · rfl
  · exact hne

theorem items?_separated {items : List (List Token)} {vs : List Value}
    (h : List.Forall₂ Parses items vs) (hne : items ≠ []) (rest : List Token) {fuel : Nat}
    (hfuel : (separated items).length < fuel) :
    items? fuel (separated items ++ .endArray :: rest) = some (vs, rest) := by
  induction h generalizing fuel with
  | nil => exact absurd rfl hne
  | @cons first v items vs hfirst hitems ih =>
    cases fuel with
    | zero => exact absurd hfuel (Nat.not_lt_zero _)
    | succ fuel =>
      cases hitems with
      | nil => exact items?_last (hfirst fuel _ (Nat.le_of_lt_succ hfuel))
      | cons hsecond hrest =>
        rw [separated_cons_cons, List.length_append, List.length_cons] at hfuel
        rw [separated_cons_cons, List.append_assoc]
        exact items?_more (hfirst fuel _ (by omega)) (ih (List.cons_ne_nil _ _) (by omega))

theorem members?_separated {items : List (List Token)} {ms : List (Text × Value)}
    (h : List.Forall₂ ParsesMember items ms) (hne : items ≠ []) (rest : List Token) {fuel : Nat}
    (hfuel : (separated items).length < fuel) :
    members? fuel (separated items ++ .endObject :: rest) = some (ms, rest) := by
  induction h generalizing fuel with
  | nil => exact absurd rfl hne
  | @cons first m items ms hfirst hitems ih =>
    obtain ⟨value, rfl, hvalue⟩ := hfirst
    cases fuel with
    | zero => exact absurd hfuel (Nat.not_lt_zero _)
    | succ fuel =>
      cases hitems with
      | nil =>
        simp only [separated, List.length_cons] at hfuel
        exact members?_last (hvalue fuel _ (by omega))
      | cons hsecond hrest =>
        simp only [separated_cons_cons, List.length_append, List.length_cons] at hfuel
        rw [separated_cons_cons, List.append_assoc]
        exact members?_more (hvalue fuel _ (by omega)) (ih (List.cons_ne_nil _ _) (by omega))

/-- What the first item does not start with, no items start with. -/
theorem separated_ne {token : Token} {first : List Token} (items : List (List Token))
    (h : ∀ rest more, first ++ more ≠ token :: rest) (more rest : List Token) :
    separated (first :: items) ++ more ≠ token :: rest := by
  cases items with
  | nil => exact h rest more
  | cons second items =>
    rw [separated_cons_cons, List.append_assoc]
    exact h rest _

theorem Parses.array {items : List (List Token)} {vs : List Value}
    (h : List.Forall₂ Parses items vs) :
    Parses (.beginArray :: (separated items ++ [.endArray])) (.array vs) := by
  intro fuel rest hfuel
  rw [List.length_cons, List.length_append, List.length_singleton] at hfuel
  rw [List.cons_append, List.append_assoc]
  cases fuel with
  | zero => cases hfuel
  | succ fuel =>
    cases h with
    | nil => rfl
    | @cons first v items vs hfirst hitems =>
      exact value?_array (separated_ne items hfirst.ne_endArray _)
        (items?_separated (.cons hfirst hitems) (List.cons_ne_nil _ _) rest (by omega))

theorem Parses.object {items : List (List Token)} {ms : List (Text × Value)}
    (h : List.Forall₂ ParsesMember items ms) :
    Parses (.beginObject :: (separated items ++ [.endObject])) (.object ms) := by
  intro fuel rest hfuel
  rw [List.length_cons, List.length_append, List.length_singleton] at hfuel
  rw [List.cons_append, List.append_assoc]
  cases fuel with
  | zero => cases hfuel
  | succ fuel =>
    cases h with
    | nil => rfl
    | @cons first m items ms hfirst hitems =>
      have hne : ∀ rest more, first ++ more ≠ .endObject :: rest := by
        obtain ⟨value, rfl, -⟩ := hfirst
        intro rest more heq
        cases heq
      exact value?_object (separated_ne items hne _)
        (members?_separated (.cons hfirst hitems) (List.cons_ne_nil _ _) rest (by omega))

/-! ## Texts and their values -/

/-- The text is this value, if no word goes on after it. -/
def Spells (t : Text) (v : Value) : Prop := ∃ ts, LexesWord t ts ∧ Parses ts v

/-- The text is a member of an object, if no word goes on after it. -/
def SpellsMember (t : Text) (m : Text × Value) : Prop := ∃ ts, LexesWord t ts ∧ ParsesMember ts m

theorem Spells.string (t : Text) : Spells (quoted t) (.string t) :=
  ⟨_, (Lexes.quoted t).lexesWord, .scalar _⟩

theorem Spells.number {x : Rat} (h : number? t = some x) : Spells t (.number x) :=
  ⟨_, LexesWord.number h, .scalar _⟩

theorem Spells.int (n : Int) : Spells (int n) (.number n) := .number (number?_ofInt n)

theorem SpellsMember.of {key : String} {v : Value} (h : Spells t v) :
    SpellsMember (member key t) (key, v) := by
  obtain ⟨ts, hlexes, hparses⟩ := h
  have hcolon : Mark ": " .colon := ⟨by decide, rfl⟩
  exact ⟨_, ((Lexes.quoted key).append hcolon.lexes).before hlexes, ts, rfl, hparses⟩

/-- The texts of a list of items, and their tokens. -/
theorem exists_tokens {α : Type} {P : List Token → α → Prop} {texts : List Text} {items : List α}
    (h : List.Forall₂ (fun t a => ∃ ts, LexesWord t ts ∧ P ts a) texts items) :
    ∃ tss, List.Forall₂ LexesWord texts tss ∧ List.Forall₂ P tss items := by
  induction h with
  | nil => exact ⟨[], .nil, .nil⟩
  | cons hfirst hrest ih =>
    obtain ⟨ts, hlexes, hts⟩ := hfirst
    obtain ⟨tss, hall, htss⟩ := ih
    exact ⟨ts :: tss, .cons hlexes hall, .cons hts htss⟩

theorem LexesWord.join {sep : Text} (hsep : Mark sep .comma) {texts : List Text}
    {tss : List (List Token)} (h : List.Forall₂ LexesWord texts tss) :
    LexesWord (Text.join sep texts) (separated tss) := by
  induction h with
  | nil => exact Lexes.nil.lexesWord
  | cons hfirst hrest ih =>
    cases hrest with
    | nil => exact hfirst
    | cons hsecond hrest =>
      have hcomma := hfirst.followed hsep.lexes hsep.ne_nil hsep.ends
      have hall := hcomma.before ih
      rw [List.append_assoc _ [Token.comma]] at hall
      exact hall

section Brackets

variable {start sep stop : Text} {texts : List Text}

/-- Items with commas between them, between a sign that begins and a sign that ends. -/
theorem LexesWord.bracketed {first last : Token} {tss : List (List Token)}
    (hstart : Mark start first) (hsep : Mark sep .comma) (hstop : Mark stop last)
    (h : List.Forall₂ LexesWord texts tss) :
    LexesWord (start ++ Text.join sep texts ++ stop) (first :: (separated tss ++ [last])) :=
  have hjoined := hstart.lexes.before (LexesWord.join hsep h)
  (hjoined.followed hstop.lexes hstop.ne_nil hstop.ends).lexesWord

theorem Spells.array {vs : List Value} (hstart : Mark start .beginArray) (hsep : Mark sep .comma)
    (hstop : Mark stop .endArray) (h : List.Forall₂ Spells texts vs) :
    Spells (start ++ Text.join sep texts ++ stop) (.array vs) := by
  obtain ⟨tss, hlexes, hparses⟩ := exists_tokens h
  exact ⟨_, .bracketed hstart hsep hstop hlexes, .array hparses⟩

theorem Spells.object {ms : List (Text × Value)} (hstart : Mark start .beginObject)
    (hsep : Mark sep .comma) (hstop : Mark stop .endObject)
    (h : List.Forall₂ SpellsMember texts ms) :
    Spells (start ++ Text.join sep texts ++ stop) (.object ms) := by
  obtain ⟨tss, hlexes, hparses⟩ := exists_tokens h
  exact ⟨_, .bracketed hstart hsep hstop hlexes, .object hparses⟩

end Brackets

/-- What is spelled is read, also with blanks after it. -/
theorem Spells.read?_eq {v : Value} (h : Spells t v) (hs : ∀ c ∈ s, isSpace c = true) :
    read? (t ++ s) = some v := by
  obtain ⟨ts, hlexes, hparses⟩ := h
  have hends : Ends s := by
    intro c hc
    rw [isWord, hs c (List.mem_of_mem_head? hc)]
    rfl
  have hblank : tokens? s = some [] := by
    have htokens := Lexes.signs (fun c hc => isLayout_of_isSpace (hs c hc)) []
    rw [filterMap_blanks hs, List.append_nil, tokens?] at htokens
    exact htokens
  have hvalue := hparses ts.length [] (Nat.le_refl _)
  rw [List.append_nil] at hvalue
  rw [read?, hlexes s hends, hblank, Option.map_some, List.append_nil, Option.bind_some, hvalue]

end Dungeon.Json
