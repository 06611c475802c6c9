import Gherkin.Proofs.Json.Reader
import Mathlib.Data.List.Basic
import Mathlib.Data.List.TakeWhile

/-!
# What is written is read back

The reader gives the value that was written (`Json.read?_pretty`). It reads the parts of what is
written one by one: the breaks between them change nothing, a text or a number gives its token, and
a value that is written where a value is to come is complete at its end (`run?_chars`). This is so
for what follows it as long as that cannot be taken for the rest of a number.
-/

namespace Gherkin

namespace Json

mutual

/-- The value that is read. -/
def value : Json → Value
  | .text s => .text s
  | .number n => .number ⟨n, 0⟩
  | .list vs => .list (itemValues vs)
  | .object fs => .object (fieldValues fs)

/-- The values of items. -/
def itemValues : List Json → List Value
  | [] => []
  | v :: vs => value v :: itemValues vs

/-- The fields with their values. -/
def fieldValues : List (String × Json) → List (String × Value)
  | [] => []
  | (k, v) :: fs => (k, value v) :: fieldValues fs

end

theorem itemValues_eq_map (vs : List Json) : itemValues vs = vs.map value := by
  induction vs with
  | nil => rfl
  | cons v vs ih => rw [itemValues, ih, List.map_cons]

variable {p : Parsing} {rest : List Char}

/-- What follows cannot be taken for the rest of a word. -/
def Stops (rest : List Char) : Prop :=
  ∀ c ∈ rest.head?, ¬ inWord c

theorem stops_cons {c : Char} (h : ¬ inWord c) : Stops (c :: rest) := by
  simpa [Stops] using h

theorem stops_newLine (depth : Nat) : Stops (newLine depth ++ rest) :=
  stops_cons (by decide)

/-! ## Steps of the reader -/

theorem run?_cons {l l' : Lexing} {c : Char} {tokens : List Token}
    (next : l.next? c = some (tokens, l')) :
    run? l p (c :: rest) = (tokens.foldlM Parsing.next? p).bind fun p => run? l' p rest := by
  rw [run?, next]
  rfl

/-- A character that completes no token is passed. -/
theorem run?_pass {l l' : Lexing} {c : Char} (next : l.next? c = some ([], l')) :
    run? l p (c :: rest) = run? l' p rest :=
  run?_cons next

/-- A character that completes one token has it taken. -/
theorem run?_take {l l' : Lexing} {c : Char} {token : Token} {p' : Parsing}
    (next : l.next? c = some ([token], l')) (taken : p.next? token = some p') :
    run? l p (c :: rest) = run? l' p' rest := by
  rw [run?_cons next, List.foldlM_cons, taken]
  rfl

theorem run?_newLine (depth : Nat) :
    run? .between p (newLine depth ++ rest) = run? .between p rest := by
  have spaces : ∀ n, run? .between p (List.replicate n ' ' ++ rest) = run? .between p rest := by
    intro n
    induction n with
    | zero => rfl
    | succ n ih =>
      rw [List.replicate_succ, List.cons_append, run?_pass rfl, ih]
  rw [newLine, List.cons_append, run?_pass rfl, spaces]

/-! ## Texts -/

/-- How a character is spelled. -/
def spelled (c : Char) : Spelled :=
  if c.toNat < 32 ∧ c ∉ ['\x08', '\t', '\n', '\x0c', '\r'] then .code c.toNat else .plain c

theorem hexDigit?_digitChar {d : Nat} (h : d < 16) : hexDigit? (Nat.digitChar d) = some d := by
  revert d
  decide

/-- A code that is written with two zeros in front. -/
theorem run?_code (before : List Spelled) {n : Nat} (h : n < 32) :
    run? (.text before) p (['\\', 'u', '0', '0', Nat.digitChar (n / 16), Nat.digitChar (n % 16)] ++
      rest) = run? (.text (.code n :: before)) p rest := by
  have high : hexDigit? (Nat.digitChar (n / 16)) = some (n / 16) := hexDigit?_digitChar (by omega)
  have low : hexDigit? (Nat.digitChar (n % 16)) = some (n % 16) := hexDigit?_digitChar (by omega)
  have third : Lexing.next? (.code before 0 2) (Nat.digitChar (n / 16)) =
      some ([], .code before (n / 16) 1) := by
    simp [Lexing.next?, high]
  have fourth : Lexing.next? (.code before (n / 16) 1) (Nat.digitChar (n % 16)) =
      some ([], .text (.code n :: before)) := by
    simp [Lexing.next?, low, Nat.div_add_mod]
  calc run? (.text before) p _
    _ = run? (.escape before) p _ := run?_pass rfl
    _ = run? (.code before 0 4) p _ := run?_pass rfl
    _ = run? (.code before 0 3) p _ := run?_pass rfl
    _ = run? (.code before 0 2) p _ := run?_pass rfl
    _ = run? (.code before (n / 16) 1) p _ := run?_pass third
    _ = run? (.text (.code n :: before)) p rest := run?_pass fourth

theorem run?_escaped (before : List Spelled) (c : Char) :
    run? (.text before) p (escaped c ++ rest) = run? (.text (spelled c :: before)) p rest := by
  unfold escaped
  split
  case h_8 quote backslash b t n f r =>
    split
    · next control =>
      have code : spelled c = .code c.toNat := by
        refine if_pos ⟨control, ?_⟩
        simp only [List.mem_cons, List.not_mem_nil, or_false, not_or]
        exact ⟨b, t, n, f, r⟩
      rw [code]
      exact run?_code before control
    · next control =>
      have plain : spelled c = .plain c := if_neg fun h => control h.1
      rw [plain]
      exact run?_pass (by rw [Lexing.next?, if_neg quote, if_neg backslash, if_neg control])
  -- the characters that have an escape of one letter, or are one
  all_goals exact (run?_pass rfl).trans (run?_pass rfl)

theorem run?_flatMap_escaped (before : List Spelled) (cs : List Char) :
    run? (.text before) p (cs.flatMap escaped ++ rest) =
      run? (.text ((cs.map spelled).reverse ++ before)) p rest := by
  induction cs generalizing before with
  | nil => rfl
  | cons c cs ih =>
    rw [List.flatMap_cons, List.append_assoc, run?_escaped, ih, List.map_cons, List.reverse_cons,
      List.append_assoc, List.singleton_append]

theorem characters?_spelled (cs : List Char) : characters? (cs.map spelled) = some cs := by
  induction cs with
  | nil => rfl
  | cons c cs ih =>
    rw [List.map_cons]
    by_cases h : c.toNat < 32 ∧ c ∉ ['\x08', '\t', '\n', '\x0c', '\r']
    · have high : ¬ isHighCode c.toNat := fun above => by have := above.1; omega
      have low : ¬ isLowCode c.toNat := fun above => by have := above.1; omega
      rw [spelled, if_pos h, characters?.eq_def]
      simp only [if_neg high, if_neg low, ih, Option.map_some, Char.ofNat_toNat]
    · rw [spelled, if_neg h, characters?, ih, Option.map_some]

/-- A text gives its token. -/
theorem run?_quoted (s : String) :
    run? .between p (quoted s ++ rest) =
      (p.next? (.text s)).bind fun p => run? .between p rest := by
  have closed : Lexing.next? (.text (s.toList.map spelled).reverse) '"' =
      some ([.text s], .between) := by
    simp [Lexing.next?, characters?_spelled]
  have opened : Lexing.next? .between '"' = some ([], .text []) := rfl
  rw [quoted, List.cons_append, List.cons_append, run?_pass opened, List.append_assoc,
    run?_flatMap_escaped, List.append_nil, List.singleton_append, run?_cons closed]
  simp

/-! ## Numbers -/

theorem inWord_digit {c : Char} (h : c.isDigit = true) : inWord c := by
  simp [inWord, Char.isAlphanum, h]

theorem not_isSpace_digit {c : Char} (h : c.isDigit = true) : ¬ isSpace c := by
  rintro (rfl | rfl | rfl | rfl) <;> cases h

/-- Only zero is written with a zero in front. -/
theorem eq_zero_of_head?_toDigits {n : Nat} (h : (Nat.toDigits 10 n).head? = some '0') : n = 0 := by
  induction n using Nat.base_induction 10 (by decide) with
  | single m small =>
    rw [Nat.toDigits_of_lt_base small] at h
    revert m
    decide
  | digit m k small positive ih =>
    rw [← Nat.toDigits_append_toDigits (by decide) positive small,
      List.head?_append_of_ne_nil _ Nat.toDigits_ne_nil] at h
    have := ih h
    omega

theorem all_isDigit_toDigits (n : Nat) : ∀ c ∈ Nat.toDigits 10 n, c.isDigit = true :=
  fun _ => Nat.isDigit_of_mem_toDigits (by decide) (by decide)

theorem unsigned?_toDigits (n : Nat) : unsigned? (Nat.toDigits 10 n) = some ⟨n, 0⟩ := by
  have all := all_isDigit_toDigits n
  have whole : (Nat.toDigits 10 n).takeWhile Char.isDigit = Nat.toDigits 10 n :=
    List.takeWhile_eq_self_iff.2 all
  have rest : (Nat.toDigits 10 n).dropWhile Char.isDigit = [] := List.dropWhile_eq_nil_iff.2 all
  have leads : ¬ ((Nat.toDigits 10 n).head? = some '0' ∧ Nat.toDigits 10 n ≠ ['0']) := by
    rintro ⟨zero, more⟩
    rw [eq_zero_of_head?_toDigits zero] at more
    exact more rfl
  have digits : digits? (Nat.toDigits 10 n) = some n := by
    rw [digits?, if_pos ⟨Nat.toDigits_ne_nil, List.all_eq_true.2 all⟩,
      Nat.ofDigitChars_ten_toDigits]
  simp only [unsigned?, whole, rest, if_neg leads, digits]
  rfl

theorem word?_toDigits (n : Nat) : word? (Nat.toDigits 10 n) = some (.number ⟨n, 0⟩) := by
  have all := all_isDigit_toDigits n
  have no : ∀ s : String, s.toList.any (! ·.isDigit) = true → Nat.toDigits 10 n ≠ s.toList := by
    intro s other same
    rw [← same, List.any_eq_true] at other
    obtain ⟨c, hc, different⟩ := other
    simp [all c hc] at different
  have decimal : decimal? (Nat.toDigits 10 n) = unsigned? (Nat.toDigits 10 n) := by
    rw [decimal?.eq_def]
    split
    · next same => simpa using all '-' (by simp [same])
    · rfl
  rw [word?, if_neg (no _ (by decide)), if_neg (no _ (by decide)), if_neg (no _ (by decide)),
    decimal, unsigned?_toDigits]
  rfl

theorem run?_word (before : List Char) {cs : List Char} (h : ∀ c ∈ cs, inWord c) :
    run? (.word before) p (cs ++ rest) = run? (.word (cs.reverse ++ before)) p rest := by
  induction cs generalizing before with
  | nil => rfl
  | cons c cs ih =>
    rw [List.forall_mem_cons] at h
    have next : Lexing.next? (.word before) c = some ([], .word (c :: before)) := if_pos h.1
    rw [List.cons_append, run?_pass next, ih _ h.2, List.reverse_cons, List.append_assoc,
      List.singleton_append]

/-- A word is over before a character that cannot be part of it, and at the end. -/
theorem run?_word_end {before : List Char} {v : Value} (word : word? before.reverse = some v)
    (stops : Stops rest) :
    run? (.word before) p rest = (p.next? (.word v)).bind fun p => run? .between p rest := by
  cases rest with
  | nil =>
    rw [run?, Lexing.end?, word]
    cases taken : p.next? (.word v) <;> simp [taken, run?, Lexing.end?]
  | cons c rest =>
    have other : ¬ inWord c := stops c rfl
    have next : Lexing.next? (.word before) c =
        (Lexing.begin? c).map fun begun => (.word v :: begun.1, begun.2) := by
      rw [Lexing.next?, if_neg other, word]
      cases Lexing.begin? c <;> rfl
    cases begun : Lexing.next? .between c with
    | none =>
      have ended : Lexing.next? (.word before) c = none := by
        rw [next, ← Lexing.next?, begun]
        rfl
      cases taken : p.next? (.word v) <;> simp [run?, begun, ended]
    | some x =>
      obtain ⟨tokens, after⟩ := x
      have ended : Lexing.next? (.word before) c = some (.word v :: tokens, after) := by
        rw [next, ← Lexing.next?, begun]
        rfl
      rw [run?_cons ended, List.foldlM_cons]
      cases taken : p.next? (.word v) <;> simp [run?_cons begun]

/-- A number gives its token. -/
theorem run?_number (n : Nat) (stops : Stops rest) :
    run? .between p ((toString n).toList ++ rest) =
      (p.next? (.word (.number ⟨n, 0⟩))).bind fun p => run? .between p rest := by
  have written : (toString n).toList = Nat.toDigits 10 n := Nat.toList_repr
  have all := all_isDigit_toDigits n
  have word := word?_toDigits n
  rw [written]
  cases digits : Nat.toDigits 10 n with
  | nil => exact absurd digits Nat.toDigits_ne_nil
  | cons c cs =>
    rw [digits] at all word
    rw [List.forall_mem_cons] at all
    have begun : Lexing.next? .between c = some ([], .word [c]) := by
      rw [Lexing.next?, Lexing.begin?, if_neg (not_isSpace_digit all.1),
        if_pos (inWord_digit all.1)]
    rw [List.cons_append, run?_pass begun, run?_word _ fun c hc => inWord_digit (all.2 c hc),
      run?_word_end (by simpa using word) stops]

/-! ## Values -/

theorem stops_itemChars (vs : List Json) (depth inner : Nat) (rest : List Char) :
    Stops (itemChars inner vs ++ (newLine depth ++ rest)) := by
  cases vs with
  | nil => exact stops_newLine depth
  | cons v vs =>
    rw [itemChars]
    exact stops_cons (by decide)

theorem stops_fieldChars (fs : List (String × Json)) (depth inner : Nat) (rest : List Char) :
    Stops (fieldChars inner fs ++ (newLine depth ++ rest)) := by
  cases fs with
  | nil => exact stops_newLine depth
  | cons f fs =>
    rw [fieldChars]
    exact stops_cons (by decide)

/-- A list that has begun takes a value as its first item. -/
theorem run?_firstItem (v : Json) (depth : Nat) (around : List Frame) (stops : Stops rest) :
    run? .between (.firstItem around) (chars depth v ++ rest) =
      run? .between (.value (.list [] :: around)) (chars depth v ++ rest) := by
  rcases v with s | n | (_ | _) | (_ | _)
  · rw [chars, run?_quoted, run?_quoted]
    rfl
  · rw [chars, run?_number n stops, run?_number n stops]
    rfl
  all_goals
    simp only [chars, List.cons_append, List.append_assoc]
    exact (run?_take rfl rfl).trans (run?_take rfl rfl).symm

/-- A name and its colon. -/
theorem run?_name {before : List (String × Value)} {around : List Frame} (k : String)
    (taken : p.next? (.text k) = some (.colon before k around)) :
    run? .between p (quoted k ++ ':' :: ' ' :: rest) =
      run? .between (.value (.object before k :: around)) rest := by
  rw [run?_quoted, taken, Option.bind_some, run?_take rfl rfl, run?_pass rfl]

mutual

/-- A value that is written where a value is to come is complete at its end. -/
theorem run?_chars (v : Json) (depth : Nat) (around : List Frame) (rest : List Char)
    (stops : Stops rest) : run? .between (.value around) (chars depth v ++ rest) =
      run? .between (.complete v.value around) rest :=
  match v with
  | .text s => by
    rw [chars, run?_quoted]
    rfl
  | .number n => by
    rw [chars, run?_number n stops]
    rfl
  | .list [] => by
    rw [chars, List.cons_append, run?_take rfl rfl, List.cons_append, run?_take rfl rfl]
    rfl
  | .list (v :: vs) => by
    have next := stops_itemChars vs depth (depth + 1) (']' :: rest)
    simp only [chars, List.cons_append, List.append_assoc, List.nil_append]
    rw [run?_take rfl rfl, run?_newLine, run?_firstItem v _ _ next, run?_chars v _ _ _ next,
      run?_itemChars]
    rfl
  | .object [] => by
    rw [chars, List.cons_append, run?_take rfl rfl, List.cons_append, run?_take rfl rfl]
    rfl
  | .object ((k, v) :: fs) => by
    have next := stops_fieldChars fs depth (depth + 1) ('\x7d' :: rest)
    simp only [chars, List.cons_append, List.append_assoc, List.nil_append]
    rw [run?_take rfl rfl, run?_newLine, run?_name k rfl, run?_chars v _ _ _ next,
      run?_fieldChars]
    rfl

/-- Items that are written after a complete one are in the list. -/
theorem run?_itemChars (vs : List Json) (depth inner : Nat) (v : Value) (before : List Value)
    (around : List Frame) (rest : List Char) :
    run? .between (.complete v (.list before :: around))
        (itemChars inner vs ++ (newLine depth ++ ']' :: rest)) =
      run? .between (.complete (.list ((v :: before).reverse ++ itemValues vs)) around) rest :=
  match vs with
  | [] => by
    rw [itemChars, List.nil_append, run?_newLine, run?_take rfl rfl, itemValues, List.append_nil]
  | w :: ws => by
    have next := stops_itemChars ws depth inner (']' :: rest)
    simp only [itemChars, List.cons_append, List.append_assoc]
    rw [run?_take rfl rfl, run?_newLine, run?_chars w _ _ _ next, run?_itemChars, itemValues,
      List.reverse_cons, List.append_assoc, List.singleton_append]

/-- Fields that are written after a complete one are in the object. -/
theorem run?_fieldChars (fs : List (String × Json)) (depth inner : Nat) (v : Value)
    (before : List (String × Value)) (key : String) (around : List Frame) (rest : List Char) :
    run? .between (.complete v (.object before key :: around))
        (fieldChars inner fs ++ (newLine depth ++ '\x7d' :: rest)) =
      run? .between (.complete (.object (((key, v) :: before).reverse ++ fieldValues fs)) around)
        rest :=
  match fs with
  | [] => by
    rw [fieldChars, List.nil_append, run?_newLine, run?_take rfl rfl, fieldValues, List.append_nil]
  | (k, w) :: gs => by
    have next := stops_fieldChars gs depth inner ('\x7d' :: rest)
    simp only [fieldChars, List.cons_append, List.append_assoc, List.nil_append]
    rw [run?_take rfl rfl, run?_newLine, run?_name k rfl, run?_chars w _ _ _ next,
      run?_fieldChars, fieldValues, List.reverse_cons, List.append_assoc, List.singleton_append]

end

/-- **What is written is read back.** The text of a value is well formed and read as the value;
spaces after it make no difference. -/
theorem read?_pretty (v : Json) (more : List Char) (spaces : ∀ c ∈ more, isSpace c) :
    read? (v.pretty ++ .ofList more) = some v.value := by
  have stops : Stops more := by
    intro c hc
    rcases spaces c (List.mem_of_mem_head? hc) with rfl | rfl | rfl | rfl <;> decide
  have blank : ∀ cs : List Char, (∀ c ∈ cs, isSpace c) →
      run? .between (.complete v.value []) cs = some v.value := by
    intro cs hcs
    induction cs with
    | nil => rfl
    | cons c cs ih =>
      rw [List.forall_mem_cons] at hcs
      have next : Lexing.next? .between c = some ([], .between) := if_pos hcs.1
      rw [run?_pass next, ih hcs.2]
  rw [read?, pretty, String.toList_append, String.toList_ofList, String.toList_ofList,
    run?_chars v 0 [] more stops, blank more spaces]

end Json

end Gherkin
