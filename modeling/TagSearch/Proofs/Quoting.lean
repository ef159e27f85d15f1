import TagSearch.Toml.Reader
import TagSearch.Toml.Writer

/-!
# Quoted text is read back

However a text is quoted, the reader of strings yields it again, with whatever follows the closing
quotes. Three quotes in a row close a long string, so what has to be shown there is that the writer
never puts three in a row into one, and that the one or two quotes at its end are counted to the
text (`longBasicRest_escape`, `longLiteralRest_append`).

Main statements: `takeKeyPart?_quoteKey`, `takeValue?_quoteString`.
-/

namespace TagSearch.Toml

open Text

/-! ## One character -/

theorem hexValue?_upper : ∀ n < 16, hexValue? (Json.hexDigit n).toUpper = some n := by
  decide

/-- A control character is read back from its code. -/
theorem charOfHex?_code {c : Char} (h : c.toNat < 0x80) :
    charOfHex? ['0', '0', (Json.hexDigit (c.toNat / 16)).toUpper,
      (Json.hexDigit (c.toNat % 16)).toUpper] = some c := by
  have hhigh := hexValue?_upper (c.toNat / 16) (by omega)
  have hlow := hexValue?_upper (c.toNat % 16) (by omega)
  have hzero : hexValue? '0' = some 0 := by decide
  have hsum : 16 * (c.toNat / 16) + c.toNat % 16 = c.toNat := Nat.div_add_mod ..
  have hnat : natOfBase? 16 ['0', '0', (Json.hexDigit (c.toNat / 16)).toUpper,
      (Json.hexDigit (c.toNat % 16)).toUpper] = some c.toNat := by
    simp [natOfBase?, hhigh, hlow, hzero, hsum, Nat.mod_lt, show c.toNat / 16 < 16 by omega]
  have hvalid : c.toNat.isValidChar := c.valid
  simp [charOfHex?, hnat, hvalid]

/-- What a character other than a quote is written as. -/
inductive Escaped (long : Bool) (c : Char) : Text → Prop
  | letter {letter : Char} (h : escaped? letter = some c) (hcode : letter ≠ 'u' ∧ letter ≠ 'U') :
    Escaped long c ['\\', letter]
  | code (h : c.toNat < 0x80) :
    Escaped long c ['\\', 'u', '0', '0', (Json.hexDigit (c.toNat / 16)).toUpper,
      (Json.hexDigit (c.toNat % 16)).toUpper]
  | newline (hlong : long = true) (h : c = '\n') : Escaped long c [c]
  | plain (hslash : c ≠ '\\') (h : isControl c = false) : Escaped long c [c]

theorem escaped_escapeChar (long : Bool) (c : Char) : Escaped long c (escapeChar long c) := by
  unfold escapeChar
  split
  · exact .letter rfl (by decide)
  · exact .letter rfl (by decide)
  · exact .letter rfl (by decide)
  · exact .letter rfl (by decide)
  · exact .letter rfl (by decide)
  · split
    · next hlong => exact .newline hlong rfl
    · exact .letter rfl (by decide)
  · next hslash _ _ _ htab _ =>
    split
    · next h =>
      refine .code ?_
      simp only [Bool.or_eq_true, decide_eq_true_eq, beq_iff_eq] at h
      omega
    · next h => exact .plain hslash (by simpa [isControl] using fun _ => h)

theorem basicRest_plain {c : Char} (hquote : c ≠ '"') (hslash : c ≠ '\\')
    (hcontrol : isControl c = false) (rest : Text) :
    basicRest (c :: rest) = withChar c (basicRest rest) := by
  rw [basicRest.eq_def]
  split <;> grind

theorem longBasicRest_plain {c : Char} (hquote : c ≠ '"') (hslash : c ≠ '\\')
    (hcontrol : isControl c = false ∨ c = '\n') (rest : Text) :
    longBasicRest false (c :: rest) = withChar c (longBasicRest false rest) := by
  have hreturn : c ≠ '\r' := by
    rintro rfl
    exact absurd hcontrol (by decide)
  rw [longBasicRest.eq_def]
  split <;> grind

theorem basicRest_letter {letter c : Char} (h : escaped? letter = some c)
    (hcode : letter ≠ 'u' ∧ letter ≠ 'U') (rest : Text) :
    basicRest ('\\' :: letter :: rest) = withChar c (basicRest rest) := by
  rw [basicRest.eq_def]
  split <;> grind

theorem longBasicRest_letter {letter c : Char} (h : escaped? letter = some c)
    (hcode : letter ≠ 'u' ∧ letter ≠ 'U') (rest : Text) :
    longBasicRest false ('\\' :: letter :: rest) = withChar c (longBasicRest false rest) := by
  have hblank : letter ≠ '\n' ∧ letter ≠ ' ' ∧ letter ≠ '\t' ∧ letter ≠ '\r' := by
    refine ⟨?_, ?_, ?_, ?_⟩ <;> rintro rfl <;> simp [escaped?] at h
  rw [longBasicRest.eq_def]
  split <;> grind

/-- **What a character is written as is read as that character,** in a string on one line. -/
theorem basicRest_escapeChar {c : Char} (hquote : c ≠ '"') (rest : Text) :
    basicRest (escapeChar false c ++ rest) = withChar c (basicRest rest) := by
  generalize hwritten : escapeChar false c = written
  have hescaped : Escaped false c written := hwritten ▸ escaped_escapeChar false c
  cases hescaped with
  | letter h hcode => exact basicRest_letter h hcode rest
  | code h => simp [basicRest, charOfHex?_code h]
  | newline hlong => simp at hlong
  | plain hslash h => exact basicRest_plain hquote hslash h rest

/-- The same in a long string. -/
theorem longBasicRest_escapeChar {c : Char} (hquote : c ≠ '"') (rest : Text) :
    longBasicRest false (escapeChar true c ++ rest) = withChar c (longBasicRest false rest) := by
  generalize hwritten : escapeChar true c = written
  have hescaped : Escaped true c written := hwritten ▸ escaped_escapeChar true c
  cases hescaped with
  | letter h hcode => exact longBasicRest_letter h hcode rest
  | code h => simp [longBasicRest, charOfHex?_code h]
  | newline _ h => exact longBasicRest_plain hquote (by rw [h]; decide) (Or.inr h) rest
  | plain hslash h => exact longBasicRest_plain hquote hslash (Or.inl h) rest

/-! ## Whole texts -/

theorem escape_cons {c : Char} (hquote : c ≠ '"') (long : Bool) (room : Nat) (rest : Text) :
    escape long room (c :: rest)
      = escapeChar long c ++ escape long (escape.quotesAtOnce long) rest := by
  rw [escape.eq_def]
  split <;> simp_all

/-- No character but a quote is written with a quote in front, nor one but a line feed with a line
break. -/
theorem exists_escapeChar_eq {c : Char} (hquote : c ≠ '"') (long : Bool) :
    ∃ first more, escapeChar long c = first :: more ∧ first ≠ '"' ∧ first ≠ '\r'
      ∧ (first = '\n' → c = '\n') := by
  obtain ⟨written, hwritten, hescaped⟩ : ∃ written, escapeChar long c = written
      ∧ Escaped long c written := ⟨_, rfl, escaped_escapeChar long c⟩
  rw [hwritten]
  cases hescaped with
  | letter | code => exact ⟨'\\', _, rfl, by decide, by decide, by simp⟩
  | newline _ h => exact ⟨c, _, rfl, hquote, by rw [h]; decide, id⟩
  | plain _ h =>
    refine ⟨c, _, rfl, hquote, ?_, id⟩
    rintro rfl
    exact absurd h (by decide)

/-- **A text in double quotes is read back.** -/
theorem basicRest_escape (t rest : Text) :
    basicRest (escape false 0 t ++ '"' :: rest) = some (t, rest) := by
  induction t with
  | nil => simp [escape, basicRest]
  | cons c t ih =>
    by_cases hquote : c = '"'
    · subst hquote
      rw [escape, List.cons_append, List.cons_append, basicRest_letter rfl (by decide)]
      simp [escape.quotesAtOnce, ih, withChar]
    · rw [escape_cons hquote, List.append_assoc, basicRest_escapeChar hquote]
      simp [escape.quotesAtOnce, ih, withChar]

/-- **A text in single quotes is read back,** if it has none inside. -/
theorem literalRest_append {t : Text} (hquote : '\'' ∉ t) (hcontrol : ∀ c ∈ t, isControl c = false)
    (rest : Text) : literalRest (t ++ '\'' :: rest) = some (t, rest) := by
  induction t with
  | nil => simp [literalRest]
  | cons c t ih =>
    simp only [List.mem_cons, not_or, forall_eq_or_imp] at hquote hcontrol
    have hcons : literalRest (c :: (t ++ '\'' :: rest))
        = withChar c (literalRest (t ++ '\'' :: rest)) := by
      rw [literalRest.eq_def]
      split <;> grind
    rw [List.cons_append, hcons, ih hquote.2 hcontrol.2]
    simp [withChar]

/-! ## Long strings -/

/-- A single quote character that two more do not follow belongs to the text. -/
theorem longBasicRest_quote {t : Text} (h : ∀ more, t ≠ '"' :: '"' :: more) :
    longBasicRest false ('"' :: t) = withChar '"' (longBasicRest false t) := by
  have hcontrol : isControl '"' = false := by decide
  rw [longBasicRest.eq_def]
  split <;> grind

theorem longBasicRest_close {rest : Text} (h : rest.head? ≠ some '"') :
    longBasicRest false ('"' :: '"' :: '"' :: rest) = some ([], rest)
      ∧ longBasicRest false ('"' :: '"' :: '"' :: '"' :: rest) = some (['"'], rest)
      ∧ longBasicRest false ('"' :: '"' :: '"' :: '"' :: '"' :: rest) = some (['"', '"'], rest) := by
  cases rest with
  | nil => simp [longBasicRest]
  | cons c rest =>
    have hc : c ≠ '"' := by simpa using h
    refine ⟨?_, ?_, ?_⟩ <;> rw [longBasicRest.eq_def] <;> split <;> grind

/-- Where a quote must not stand as it is, none is written next. -/
theorem escape_zero_head? {t : Text} (h : t ≠ []) (long : Bool) (rest : Text) :
    (escape long 0 t ++ rest).head? ≠ some '"' := by
  obtain ⟨c, t, rfl⟩ := List.exists_cons_of_ne_nil h
  by_cases hquote : c = '"'
  · subst hquote
    simp [escape]
  · obtain ⟨first, more, hwritten, hfirst, -⟩ := exists_escapeChar_eq hquote long
    simpa [escape_cons hquote, hwritten] using hfirst

/-- After a quote, two more in a row come with the end of the text. -/
theorem eq_of_escape_quotes {room : Nat} (hroom : room ≤ 1) {t rest more : Text}
    (h : escape true room t ++ rest = '"' :: '"' :: more) : t = [] ∨ t = ['"'] ∧ room = 1 := by
  cases t with
  | nil => exact Or.inl rfl
  | cons c t =>
    right
    by_cases hquote : c = '"'
    · subst hquote
      match room, hroom with
      | 0, _ => simp [escape] at h
      | 1, _ =>
        rw [escape, List.cons_append, List.cons.injEq] at h
        refine ⟨?_, rfl⟩
        cases t with
        | nil => rfl
        | cons d t => exact absurd (by rw [h.2]; rfl) (escape_zero_head? (t := d :: t) (by simp) true rest)
    · obtain ⟨first, written, hwritten, hfirst, -⟩ := exists_escapeChar_eq hquote true
      rw [escape_cons hquote, hwritten] at h
      simp [hfirst] at h

/-- **A text in three double quotes is read back.** Up to two quotes in a row stand as they are, so
three stand in a row at the end only, and the text has whatever is left in front of the last
three. -/
theorem longBasicRest_escape {rest : Text} (hrest : rest.head? ≠ some '"') {room : Nat}
    (hroom : room ≤ 2) (t : Text) :
    longBasicRest false (escape true room t ++ (triple '"' ++ rest)) = some (t, rest) := by
  induction t generalizing room with
  | nil => simpa [escape, triple] using (longBasicRest_close hrest).1
  | cons c t ih =>
    by_cases hquote : c = '"'
    · subst hquote
      match room, hroom with
      | 0, _ =>
        rw [escape, List.cons_append, List.cons_append, longBasicRest_letter rfl (by decide),
          ih (by decide)]
        rfl
      | room + 1, hroom =>
        rw [escape, List.cons_append]
        by_cases hlast : t = [] ∨ t = ['"'] ∧ room = 1
        · rcases hlast with rfl | ⟨rfl, rfl⟩
          · simpa [escape, triple] using (longBasicRest_close hrest).2.1
          · simpa [escape, triple] using (longBasicRest_close hrest).2.2
        · rw [longBasicRest_quote fun more h => hlast (eq_of_escape_quotes (by omega) h),
            ih (by omega)]
          rfl
    · rw [escape_cons hquote, List.append_assoc, longBasicRest_escapeChar hquote,
        ih (by simp [escape.quotesAtOnce])]
      rfl

/-! ## Runs of quotes -/

/-- One step of the search for the longest run: the longest run so far and the one at hand. -/
def runStep (c : Char) (runs : Nat × Nat) (d : Char) : Nat × Nat :=
  if d == c then (max runs.1 (runs.2 + 1), runs.2 + 1) else (runs.1, 0)

theorem longestRun_eq (c : Char) (t : Text) :
    longestRun c t = (t.foldl (runStep c) (0, 0)).1 := rfl

theorem runs_mono (c : Char) (t : Text) {runs more : Nat × Nat} (hlongest : runs.1 ≤ more.1)
    (hrun : runs.2 ≤ more.2) :
    (t.foldl (runStep c) runs).1 ≤ (t.foldl (runStep c) more).1 := by
  induction t generalizing runs more with
  | nil => exact hlongest
  | cons d t ih =>
    rw [List.foldl_cons, List.foldl_cons]
    refine ih ?_ ?_ <;> unfold runStep <;> split <;> grind

theorem le_runs (c : Char) (t : Text) (runs : Nat × Nat) :
    runs.1 ≤ (t.foldl (runStep c) runs).1 := by
  induction t generalizing runs with
  | nil => exact Nat.le_refl _
  | cons d t ih =>
    refine Nat.le_trans ?_ (ih _)
    unfold runStep
    split <;> grind

/-- The longest run of a text is no shorter than that of what follows its first character. -/
theorem longestRun_le_cons (c d : Char) (t : Text) : longestRun c t ≤ longestRun c (d :: t) :=
  runs_mono c t (Nat.zero_le _) (Nat.zero_le _)

theorem one_le_longestRun (c : Char) (t : Text) : 1 ≤ longestRun c (c :: t) := by
  have hrun := le_runs c t (1, 1)
  simpa [longestRun_eq, runStep] using hrun

theorem three_le_longestRun (c : Char) (t : Text) : 3 ≤ longestRun c (c :: c :: c :: t) := by
  have hrun := le_runs c t (3, 3)
  simpa [longestRun_eq, runStep] using hrun

theorem not_mem_of_longestRun {c : Char} {t : Text} (h : longestRun c t = 0) : c ∉ t := by
  induction t with
  | nil => simp
  | cons d t ih =>
    have hrest := longestRun_le_cons c d t
    rw [List.mem_cons, not_or]
    refine ⟨?_, ih (by omega)⟩
    rintro rfl
    have hone := one_le_longestRun c t
    omega

theorem longLiteralRest_plain {c : Char} (hquote : c ≠ '\'') (hcontrol : needsEscape c = false)
    (rest : Text) : longLiteralRest (c :: rest) = withChar c (longLiteralRest rest) := by
  have hplain : (isControl c && c != '\n') = false := by
    rw [← hcontrol]
    simp only [isControl, needsEscape]
    grind
  have hreturn : c ≠ '\r' := by
    rintro rfl
    exact absurd hcontrol (by decide)
  rw [longLiteralRest.eq_def]
  split <;> grind

theorem longLiteralRest_quote {t : Text} (h : ∀ more, t ≠ '\'' :: '\'' :: more) :
    longLiteralRest ('\'' :: t) = withChar '\'' (longLiteralRest t) := by
  have hcontrol : isControl '\'' = false := by decide
  rw [longLiteralRest.eq_def]
  split <;> grind

theorem longLiteralRest_close {rest : Text} (h : rest.head? ≠ some '\'') :
    longLiteralRest ('\'' :: '\'' :: '\'' :: rest) = some ([], rest)
      ∧ longLiteralRest ('\'' :: '\'' :: '\'' :: '\'' :: rest) = some (['\''], rest)
      ∧ longLiteralRest ('\'' :: '\'' :: '\'' :: '\'' :: '\'' :: rest)
          = some (['\'', '\''], rest) := by
  cases rest with
  | nil => simp [longLiteralRest]
  | cons c rest =>
    have hc : c ≠ '\'' := by simpa using h
    refine ⟨?_, ?_, ?_⟩ <;> rw [longLiteralRest.eq_def] <;> split <;> grind

/-- **A text in three single quotes is read back,** if no three stand in a row in it. -/
theorem longLiteralRest_append {rest : Text} (hrest : rest.head? ≠ some '\'') {t : Text}
    (hruns : longestRun '\'' t ≤ 2) (hcontrol : ∀ c ∈ t, needsEscape c = false) :
    longLiteralRest (t ++ (triple '\'' ++ rest)) = some (t, rest) := by
  induction t with
  | nil => simpa [triple] using (longLiteralRest_close hrest).1
  | cons c t ih =>
    rw [List.forall_mem_cons] at hcontrol
    have ih := ih (Nat.le_trans (longestRun_le_cons '\'' c t) hruns) hcontrol.2
    rw [List.cons_append]
    by_cases hquote : c = '\''
    · subst hquote
      by_cases hlast : t = [] ∨ t = ['\'']
      · rcases hlast with rfl | rfl
        · simpa [triple] using (longLiteralRest_close hrest).2.1
        · simpa [triple] using (longLiteralRest_close hrest).2.2
      · rw [longLiteralRest_quote ?_, ih]
        · rfl
        intro more hmore
        match t, hlast with
        | [d], hlast => simp_all
        | d :: e :: t, _ =>
          simp only [List.cons_append, List.cons.injEq] at hmore
          obtain ⟨rfl, rfl, -⟩ := hmore
          have hthree := three_le_longestRun '\'' t
          omega
    · rw [longLiteralRest_plain hquote hcontrol.1, ih]
      rfl

/-! ## Keys and values -/

theorem isControl_of_needsEscape {c : Char} (h : needsEscape c = false) (hline : c ≠ '\n') :
    isControl c = false := by
  simp only [needsEscape, isControl] at h ⊢
  grind

theorem takeValue?_quote (bound : Nat) {t : Text} (h : ∀ more, t ≠ '"' :: '"' :: more) :
    takeValue? (bound + 1) ('"' :: t) = (basicRest t).map fun (s, rest) => (.str s, rest) := by
  rw [takeValue?]
  exact h

theorem takeValue?_apostrophe (bound : Nat) {t : Text} (h : ∀ more, t ≠ '\'' :: '\'' :: more) :
    takeValue? (bound + 1) ('\'' :: t)
      = (literalRest t).map fun (s, rest) => (.str s, rest) := by
  rw [takeValue?]
  exact h

section Values

variable (bound : Nat) {t rest : Text}

theorem takeValue?_basicString (hrest : rest.head? ≠ some '"') :
    takeValue? (bound + 1) (basicString t ++ rest) = some (.str t, rest) := by
  have hbody : basicString t ++ rest = '"' :: (escape false 0 t ++ '"' :: rest) := by
    simp [basicString]
  rw [hbody, takeValue?_quote, basicRest_escape]
  · rfl
  intro more hmore
  cases t with
  | nil =>
    rw [escape, List.nil_append, List.cons.injEq] at hmore
    simp [hmore.2] at hrest
  | cons c t =>
    have hhead := escape_zero_head? (List.cons_ne_nil c t) false ('"' :: rest)
    simp [hmore] at hhead

theorem takeValue?_literalString (hrest : rest.head? ≠ some '\'') (hquote : '\'' ∉ t)
    (hcontrol : ∀ c ∈ t, isControl c = false) :
    takeValue? (bound + 1) (literalString t ++ rest) = some (.str t, rest) := by
  have hbody : literalString t ++ rest = '\'' :: (t ++ '\'' :: rest) := by
    simp [literalString]
  rw [hbody, takeValue?_apostrophe, literalRest_append hquote hcontrol]
  · rfl
  intro more hmore
  cases t with
  | nil =>
    rw [List.nil_append, List.cons.injEq] at hmore
    simp [hmore.2] at hrest
  | cons c t =>
    rw [List.cons_append, List.cons.injEq] at hmore
    simp [hmore.1] at hquote

/-- The line break in front of several lines is not read, and nothing else is taken for one. -/
theorem dropFirstLine_body {body : Text}
    (hbody : '\n' ∉ t → ∀ c ∈ (body ++ rest).head?, c ≠ '\n' ∧ c ≠ '\r') :
    dropFirstLine ((if t.contains '\n' then ['\n'] else []) ++ (body ++ rest)) = body ++ rest := by
  by_cases hline : '\n' ∈ t
  · simp [hline, dropFirstLine]
  · have hhead := hbody hline
    simp only [List.contains_eq_mem, hline, decide_false, Bool.false_eq_true, if_false,
      List.nil_append]
    rw [dropFirstLine.eq_def]
    split <;> grind

theorem takeValue?_longBasic (hrest : rest.head? ≠ some '"') :
    takeValue? (bound + 1) (longString '"' (escape true 2 t) t ++ rest) = some (.str t, rest) := by
  have hbody : longString '"' (escape true 2 t) t ++ rest
      = '"' :: '"' :: '"' :: ((if t.contains '\n' then ['\n'] else [])
        ++ (escape true 2 t ++ (triple '"' ++ rest))) := by
    simp [longString, triple]
  rw [hbody, takeValue?, dropFirstLine_body, longBasicRest_escape hrest (by decide)]
  · rfl
  intro hline c hc
  cases t with
  | nil =>
    obtain rfl : '"' = c := by simpa [escape, triple] using hc
    decide
  | cons d t =>
    rw [List.mem_cons, not_or] at hline
    by_cases hquote : d = '"'
    · subst hquote
      obtain rfl : '"' = c := by simpa [escape] using hc
      decide
    · obtain ⟨first, more, hwritten, -, hreturn, hfeed⟩ := exists_escapeChar_eq hquote true
      obtain rfl : first = c := by simpa [escape_cons hquote, hwritten] using hc
      exact ⟨fun h => hline.1 (hfeed h).symm, hreturn⟩

theorem takeValue?_longLiteral (hrest : rest.head? ≠ some '\'') (hruns : longestRun '\'' t ≤ 2)
    (hcontrol : ∀ c ∈ t, needsEscape c = false) :
    takeValue? (bound + 1) (longString '\'' t t ++ rest) = some (.str t, rest) := by
  have hbody : longString '\'' t t ++ rest
      = '\'' :: '\'' :: '\'' :: ((if t.contains '\n' then ['\n'] else [])
        ++ (t ++ (triple '\'' ++ rest))) := by
    simp [longString, triple]
  rw [hbody, takeValue?, dropFirstLine_body, longLiteralRest_append hrest hruns hcontrol]
  · rfl
  intro hline c hc
  cases t with
  | nil =>
    obtain rfl : '\'' = c := by simpa [triple] using hc
    decide
  | cons d t =>
    obtain rfl : d = c := by simpa using hc
    refine ⟨fun h => hline (by simp [h]), ?_⟩
    rintro rfl
    exact absurd (hcontrol '\r' List.mem_cons_self) (by decide)

/-- What a string value is written as. -/
inductive ValueWritten (t : Text) : Text → Prop
  | basic : ValueWritten t (basicString t)
  | literal (hquote : '\'' ∉ t) (hcontrol : ∀ c ∈ t, isControl c = false) :
    ValueWritten t (literalString t)
  | longBasic : ValueWritten t (longString '"' (escape true 2 t) t)
  | longLiteral (hruns : longestRun '\'' t ≤ 2) (hcontrol : ∀ c ∈ t, needsEscape c = false) :
    ValueWritten t (longString '\'' t t)

theorem valueWritten_quoteString (t : Text) : ValueWritten t (quoteString t) := by
  have hplain : t.any needsEscape = false → ∀ c ∈ t, needsEscape c = false := by
    simp
  unfold quoteString
  dsimp only
  split
  · exact .basic
  split
  · next h =>
    simp only [Bool.and_eq_true, Bool.not_eq_true', beq_iff_eq, List.contains_eq_mem,
      decide_eq_false_iff_not] at h
    refine .literal (not_mem_of_longestRun h.1.2) fun c hc => ?_
    exact isControl_of_needsEscape (hplain h.1.1 c hc) fun hline => h.2 (hline ▸ hc)
  split
  · exact .longBasic
  split
  · next h =>
    simp only [Bool.and_eq_true, Bool.not_eq_true', decide_eq_true_eq] at h
    exact .longLiteral h.2 (hplain h.1)
  split
  · exact .longBasic
  · exact .basic

/-- A string value starts with a quote. -/
theorem exists_quoteString_eq (t : Text) :
    ∃ c more, quoteString t = c :: more ∧ (c = '"' ∨ c = '\'') := by
  obtain ⟨written, hwritten, hvalue⟩ : ∃ written, quoteString t = written
      ∧ ValueWritten t written := ⟨_, rfl, valueWritten_quoteString t⟩
  rw [hwritten]
  cases hvalue with
  | basic | longBasic => exact ⟨'"', _, rfl, Or.inl rfl⟩
  | literal | longLiteral => exact ⟨'\'', _, rfl, Or.inr rfl⟩

/-- **A string value is read back,** whichever way it is quoted. -/
theorem takeValue?_quoteString (hrest : rest.head? ≠ some '"' ∧ rest.head? ≠ some '\'') :
    takeValue? (bound + 1) (quoteString t ++ rest) = some (.str t, rest) := by
  obtain ⟨written, hwritten, hvalue⟩ : ∃ written, quoteString t = written
      ∧ ValueWritten t written := ⟨_, rfl, valueWritten_quoteString t⟩
  rw [hwritten]
  cases hvalue with
  | basic => exact takeValue?_basicString bound hrest.1
  | literal hquote hcontrol => exact takeValue?_literalString bound hrest.2 hquote hcontrol
  | longBasic => exact takeValue?_longBasic bound hrest.1
  | longLiteral hruns hcontrol => exact takeValue?_longLiteral bound hrest.2 hruns hcontrol

end Values

/-- What a key is written as: as it is, or quoted. -/
inductive KeyWritten (t : Text) : Text → Prop
  | bare (hne : t ≠ []) (h : ∀ c ∈ t, isKeyChar c = true) : KeyWritten t t
  | basic : KeyWritten t (basicString t)
  | literal (hquote : '\'' ∉ t) (hcontrol : ∀ c ∈ t, isControl c = false) :
    KeyWritten t (literalString t)

theorem keyWritten_quoteKey (t : Text) : KeyWritten t (quoteKey t) := by
  unfold quoteKey
  dsimp only
  split
  · next h =>
    simp only [Bool.and_eq_true, Bool.not_eq_true', List.isEmpty_eq_false_iff,
      List.all_eq_true] at h
    exact .bare h.1 h.2
  split
  · exact .basic
  split
  · next h =>
    simp only [Bool.and_eq_true, Bool.not_eq_true', List.contains_eq_mem,
      decide_eq_false_iff_not, List.any_eq_false, Bool.or_eq_true, beq_iff_eq, not_or] at h
    exact .literal h.2 fun c hc => isControl_of_needsEscape (by simpa using (h.1 c hc).1) (h.1 c hc).2
  · exact .basic

/-- A key starts with a character of its own or with a quote. -/
theorem exists_quoteKey_eq (t : Text) :
    ∃ c more, quoteKey t = c :: more ∧ (isKeyChar c = true ∨ c = '"' ∨ c = '\'') := by
  obtain ⟨written, hwritten, hkey⟩ : ∃ written, quoteKey t = written ∧ KeyWritten t written :=
    ⟨_, rfl, keyWritten_quoteKey t⟩
  rw [hwritten]
  cases hkey with
  | bare hne h =>
    obtain ⟨c, t, rfl⟩ := List.exists_cons_of_ne_nil hne
    exact ⟨c, t, rfl, Or.inl (h c List.mem_cons_self)⟩
  | basic => exact ⟨'"', _, rfl, Or.inr (Or.inl rfl)⟩
  | literal => exact ⟨'\'', _, rfl, Or.inr (Or.inr rfl)⟩

/-- **A key is read back.** -/
theorem takeKeyPart?_quoteKey (t : Text) {rest : Text}
    (hrest : ∀ c ∈ rest.head?, isKeyChar c = false) :
    takeKeyPart? (quoteKey t ++ rest) = some (t, rest) := by
  obtain ⟨written, hwritten, hkey⟩ : ∃ written, quoteKey t = written ∧ KeyWritten t written :=
    ⟨_, rfl, keyWritten_quoteKey t⟩
  rw [hwritten]
  cases hkey with
  | bare hne h =>
    have hend : rest.takeWhile isKeyChar = [] ∧ rest.dropWhile isKeyChar = rest := by
      cases rest with
      | nil => simp
      | cons c rest => simp [hrest c rfl]
    have hnot : ∀ more, t ++ rest ≠ '"' :: more ∧ t ++ rest ≠ '\'' :: more := by
      obtain ⟨c, t, rfl⟩ := List.exists_cons_of_ne_nil hne
      have hc := h c List.mem_cons_self
      refine fun more => ⟨?_, ?_⟩ <;> rintro ⟨⟩ <;> exact absurd hc (by decide)
    rw [takeKeyPart?.eq_def]
    split
    · next more heq => exact absurd heq (hnot more).1
    · next more heq => exact absurd heq (hnot more).2
    · rw [List.takeWhile_append_of_pos h, List.dropWhile_append_of_pos h, hend.1, hend.2]
      simpa using hne
  | basic =>
    have hbody : basicString t ++ rest = '"' :: (escape false 0 t ++ '"' :: rest) := by
      simp [basicString]
    rw [hbody]
    exact basicRest_escape t rest
  | literal hquote hcontrol =>
    have hbody : literalString t ++ rest = '\'' :: (t ++ '\'' :: rest) := by
      simp [literalString]
    rw [hbody]
    exact literalRest_append hquote hcontrol rest

end TagSearch.Toml
