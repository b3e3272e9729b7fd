import Mathlib.Algebra.Group.Nat.Even
import Mathlib.Data.List.DropRight
import SimpleC.Dot.Identifier

/-!
# Reading identifiers back

A reader of a DOT text goes through a text between double quotes from left to right. It keeps a
pair of backslashes, takes a backslash and a quote for a quote, and stops at any other quote. What
was written for a text is not always read as that text: the backslash that escapes a quote makes no
pair with one that stands there already, and the quote at the end is escaped by a last backslash
without a partner. Both go wrong exactly where the backslashes are odd in number.
-/

namespace SimpleC.Dot

open Text (backslash doubleQuote)

/-- Puts characters that were read before what is read after them. -/
def keep (front : List Char) (read : Option (List Char × List Char)) :
    Option (List Char × List Char) :=
  read.map fun (text, after) => (front ++ text, after)

/-- Reads up to the double quote that ends a text. The result is the text and what follows the
quote; it is held whether a backslash has just been met that does not complete a pair. -/
def readQuoted (held : Bool) (text : List Char) : Option (List Char × List Char) :=
  match text with
  | [] => none
  | c :: rest =>
      if c = backslash then
        if held then keep [c, c] (readQuoted false rest) else readQuoted true rest
      else if c = doubleQuote then
        if held then keep [c] (readQuoted false rest) else some ([], rest)
      else
        keep (if held then [backslash, c] else [c]) (readQuoted false rest)

/-- What is written is one complete identifier, and stands for the text: a word or a numeral for
itself, and quoted text for what is read. Markup is left aside. -/
inductive Denotes : List Char → List Char → Prop
  | plain {text : List Char}
      (hform : isWord text = true ∨ isNumeral text = true)
      (hfree : isReserved text = false) :
      Denotes text text
  | quoted {written text : List Char}
      (hread : readQuoted false written = some (text, [])) :
      Denotes (doubleQuote :: written) text

/-- The number of backslashes at the end of a text. -/
def finalBackslashes (text : List Char) : Nat :=
  (text.rtakeWhile (· = backslash)).length

/-- Backslashes stand in pairs wherever a double quote or the end of the text follows. -/
def Paired (text : List Char) : Prop :=
  ∀ front back, text = front ++ back → back.head? = some doubleQuote ∨ back = [] →
    Even (finalBackslashes front)

/-- The text without the last of an odd number of backslashes before a double quote. Whether a
backslash stands before the text that makes no pair with one before it is held. -/
def loosened (held : Bool) (text : List Char) : List Char :=
  match text with
  | [] => if held then [backslash] else []
  | c :: rest =>
      if c = backslash then
        if held then [c, c] ++ loosened false rest else loosened true rest
      else if c = doubleQuote then
        [c] ++ loosened false rest
      else
        (if held then [backslash, c] else [c]) ++ loosened false rest

/-- Whether a last backslash of the text makes no pair with one before it. -/
def endsHeld (held : Bool) (text : List Char) : Bool :=
  match text with
  | [] => held
  | c :: rest => endsHeld (c = backslash && !held) rest

/-- What a reader makes of the text when it is written between double quotes. -/
def readBack (held : Bool) (text : List Char) : Option (List Char × List Char) :=
  if endsHeld held text then none else some (loosened held text, [])

section Texts

variable {rest : List Char} {c : Char}

theorem doubleQuote_ne_backslash : doubleQuote ≠ backslash := by
  decide

/-- Texts are taken apart by what matters to a reader. -/
@[elab_as_elim]
theorem readerInduction {motive : List Char → Prop}
    (nil : motive [])
    (backslash : ∀ rest, motive rest → motive (backslash :: rest))
    (doubleQuote : ∀ rest, motive rest → motive (doubleQuote :: rest))
    (other : ∀ c rest, c ≠ Text.backslash → c ≠ Text.doubleQuote → motive rest →
      motive (c :: rest))
    (text : List Char) :
    motive text := by
  induction text with
  | nil =>
      exact nil
  | cons c rest ih =>
      by_cases hbackslash : c = Text.backslash
      · exact hbackslash ▸ backslash rest ih
      · by_cases hquote : c = Text.doubleQuote
        · exact hquote ▸ doubleQuote rest ih
        · exact other c rest hbackslash hquote ih

@[simp] theorem loosened_backslash (held : Bool) (rest : List Char) :
    loosened held (backslash :: rest) =
      if held then [backslash, backslash] ++ loosened false rest else loosened true rest :=
  rfl

@[simp] theorem loosened_doubleQuote (held : Bool) (rest : List Char) :
    loosened held (doubleQuote :: rest) = doubleQuote :: loosened false rest :=
  rfl

theorem loosened_other (held : Bool) (hbackslash : c ≠ backslash) (hquote : c ≠ doubleQuote) :
    loosened held (c :: rest) =
      (if held then [backslash, c] else [c]) ++ loosened false rest := by
  rw [loosened, if_neg hbackslash, if_neg hquote]

@[simp] theorem escapeQuotes_backslash (count : Nat) (rest : List Char) :
    escapeQuotes count (backslash :: rest) = escapeQuotes (count + 1) rest :=
  rfl

@[simp] theorem escapeQuotes_doubleQuote (count : Nat) (rest : List Char) :
    escapeQuotes count (doubleQuote :: rest) =
      List.replicate (2 * (count / 2) + 1) backslash ++ doubleQuote :: escapeQuotes 0 rest :=
  rfl

theorem escapeQuotes_other (count : Nat) (hbackslash : c ≠ backslash) (hquote : c ≠ doubleQuote) :
    escapeQuotes count (c :: rest) =
      List.replicate count backslash ++ c :: escapeQuotes 0 rest := by
  rw [escapeQuotes, if_neg hbackslash, if_neg hquote]

@[simp] theorem endsHeld_backslash (held : Bool) (rest : List Char) :
    endsHeld held (backslash :: rest) = endsHeld (!held) rest :=
  rfl

theorem endsHeld_other (held : Bool) (hbackslash : c ≠ backslash) :
    endsHeld held (c :: rest) = endsHeld false rest := by
  rw [endsHeld, decide_eq_false hbackslash, Bool.false_and]

end Texts

section Reading

variable {text : List Char}

theorem endsHeld_append (held : Bool) (front back : List Char) :
    endsHeld held (front ++ back) = endsHeld (endsHeld held front) back := by
  induction front generalizing held with
  | nil =>
      rfl
  | cons c rest ih =>
      exact ih _

theorem endsHeld_eq_false_iff : endsHeld false text = false ↔ Even (finalBackslashes text) := by
  induction text using List.reverseRecOn with
  | nil =>
      simp [endsHeld, finalBackslashes]
  | append_singleton front c ih =>
      rw [endsHeld_append, finalBackslashes, List.rtakeWhile_concat]
      by_cases hc : c = backslash
      · rw [finalBackslashes] at ih
        simp [endsHeld, hc, Nat.even_add_one, ← ih]
      · simp [endsHeld, hc]

/-- The ways to cut a text in two: before its first character, or after it. -/
theorem forall_cut_cons_iff {c : Char} {rest : List Char} {holds : List Char → List Char → Prop} :
    (∀ front back, c :: rest = front ++ back → holds front back) ↔
      holds [] (c :: rest) ∧ ∀ front back, rest = front ++ back → holds (c :: front) back := by
  constructor
  · intro h
    refine ⟨h [] _ rfl, ?_⟩
    rintro front back rfl
    exact h (c :: front) back rfl
  · rintro ⟨hfirst, hrest⟩ front back hcut
    rcases List.cons_eq_append_iff.mp hcut with ⟨rfl, rfl⟩ | ⟨front, rfl, heq⟩
    · exact hfirst
    · exact hrest front back heq

/-- Nothing is dropped, nor left without a partner at the end, exactly if backslashes stand in
pairs wherever that matters. -/
theorem loosened_eq_append_iff (held : Bool) (text : List Char) :
    loosened held text = (if held then [backslash] else []) ++ text ∧ endsHeld held text = false ↔
      ∀ front back, text = front ++ back → back.head? = some doubleQuote ∨ back = [] →
        endsHeld held front = false := by
  induction text using readerInduction generalizing held with
  | nil =>
      simp [loosened, endsHeld]
  | backslash rest ih =>
      rw [forall_cut_cons_iff]
      cases held <;> simp [endsHeld, ← ih, doubleQuote_ne_backslash.symm]
  | doubleQuote rest ih =>
      rw [forall_cut_cons_iff]
      cases held <;> simp [endsHeld, ← ih, doubleQuote_ne_backslash]
  | other c rest hbackslash hquote ih =>
      rw [forall_cut_cons_iff, loosened_other held hbackslash hquote]
      cases held <;> simp [endsHeld, ← ih, hbackslash, hquote]

theorem paired_iff : Paired text ↔ loosened false text = text ∧ endsHeld false text = false := by
  have hiff := loosened_eq_append_iff false text
  simp only [endsHeld_eq_false_iff] at hiff ⊢
  exact hiff.symm

end Reading

section Pairs

/-- The pairs in a row of backslashes. -/
def pairs (count : Nat) : List Char :=
  List.replicate (2 * (count / 2)) backslash

@[simp] theorem pairs_zero : pairs 0 = [] :=
  rfl

theorem pairs_two_mul (half : Nat) : pairs (2 * half) = List.replicate (2 * half) backslash := by
  rw [pairs, Nat.mul_div_cancel_left half (by decide)]

theorem pairs_add_two (count : Nat) : pairs (count + 2) = [backslash, backslash] ++ pairs count := by
  have hhalf : 2 * ((count + 2) / 2) = 2 + 2 * (count / 2) := by omega
  rw [pairs, hhalf, List.replicate_add]
  rfl

theorem pairs_succ_of_odd {count : Nat} (h : count % 2 = 1) :
    pairs (count + 1) = pairs count ++ [backslash, backslash] := by
  have hhalf : 2 * ((count + 1) / 2) = 2 * (count / 2) + 2 := by omega
  rw [pairs, hhalf, List.replicate_add]
  rfl

theorem pairs_succ_of_even {count : Nat} (h : ¬ count % 2 = 1) :
    pairs (count + 1) = pairs count := by
  have hhalf : 2 * ((count + 1) / 2) = 2 * (count / 2) := by omega
  rw [pairs, hhalf, pairs]

end Pairs

section Writing

variable {rest : List Char} {c : Char}

@[simp] theorem keep_nil (read : Option (List Char × List Char)) : keep [] read = read :=
  Option.map_id_apply

@[simp] theorem keep_none (front : List Char) : keep front none = none :=
  rfl

@[simp] theorem keep_some (front text after : List Char) :
    keep front (some (text, after)) = some (front ++ text, after) :=
  rfl

@[simp] theorem keep_keep (front middle : List Char) (read : Option (List Char × List Char)) :
    keep front (keep middle read) = keep (front ++ middle) read := by
  cases read <;> simp [keep]

@[simp] theorem readQuoted_nil (held : Bool) : readQuoted held [] = none :=
  rfl

@[simp] theorem readQuoted_backslash (held : Bool) (rest : List Char) :
    readQuoted held (backslash :: rest) =
      if held then keep [backslash, backslash] (readQuoted false rest) else readQuoted true rest :=
  rfl

@[simp] theorem readQuoted_doubleQuote (held : Bool) (rest : List Char) :
    readQuoted held (doubleQuote :: rest) =
      if held then keep [doubleQuote] (readQuoted false rest) else some ([], rest) :=
  rfl

theorem readQuoted_other (held : Bool) (hbackslash : c ≠ backslash) (hquote : c ≠ doubleQuote) :
    readQuoted held (c :: rest) =
      keep (if held then [backslash, c] else [c]) (readQuoted false rest) := by
  rw [readQuoted, if_neg hbackslash, if_neg hquote]

@[simp] theorem readBack_backslash (held : Bool) (rest : List Char) :
    readBack held (backslash :: rest) =
      if held then keep [backslash, backslash] (readBack false rest) else readBack true rest := by
  cases held with
  | false =>
      rfl
  | true =>
      cases h : endsHeld false rest <;> simp [readBack, h]

@[simp] theorem readBack_doubleQuote (held : Bool) (rest : List Char) :
    readBack held (doubleQuote :: rest) = keep [doubleQuote] (readBack false rest) := by
  cases h : endsHeld false rest <;>
    simp [readBack, endsHeld_other held doubleQuote_ne_backslash, h]

theorem readBack_other (held : Bool) (hbackslash : c ≠ backslash) (hquote : c ≠ doubleQuote) :
    readBack held (c :: rest) =
      keep (if held then [backslash, c] else [c]) (readBack false rest) := by
  cases h : endsHeld false rest <;>
    simp [readBack, endsHeld_other held hbackslash, loosened_other held hbackslash hquote, h]

/-- Of a row of backslashes the pairs are kept, and one without a partner is held. -/
theorem readQuoted_replicate (count : Nat) (rest : List Char) :
    readQuoted false (List.replicate count backslash ++ rest) =
      keep (pairs count) (readQuoted (count % 2 = 1) rest) := by
  induction count using Nat.twoStepInduction with
  | zero =>
      simp
  | one =>
      simp [pairs]
  | more count ih _ =>
      simp [pairs_add_two, List.replicate_succ, ih]

/-- The reader drops the backslash that a quote is escaped with, even if it stood there before,
and stops at the last quote unless that is taken for an escaped one. -/
theorem readQuoted_escapeQuotes (count : Nat) (text : List Char) :
    readQuoted false (escapeQuotes count text ++ [doubleQuote]) =
      keep (pairs count) (readBack (count % 2 = 1) text) := by
  induction text using readerInduction generalizing count with
  | nil =>
      rw [escapeQuotes, readQuoted_replicate]
      by_cases hodd : count % 2 = 1 <;> simp [readBack, endsHeld, loosened, hodd]
  | backslash rest ih =>
      rw [escapeQuotes_backslash, ih, readBack_backslash]
      by_cases hodd : count % 2 = 1
      · have heven : (count + 1) % 2 ≠ 1 := by omega
        simp [hodd, heven, pairs_succ_of_odd hodd]
      · have hheld : (count + 1) % 2 = 1 := by omega
        simp [hodd, hheld, pairs_succ_of_even hodd]
  | doubleQuote rest ih =>
      rw [escapeQuotes_doubleQuote, List.append_assoc, readQuoted_replicate, List.cons_append,
        pairs_succ_of_even (by omega), pairs_two_mul]
      simp [ih, pairs]
  | other c rest hbackslash hquote ih =>
      rw [escapeQuotes_other count hbackslash hquote, List.append_assoc, readQuoted_replicate,
        List.cons_append, readQuoted_other _ hbackslash hquote, ih,
        readBack_other _ hbackslash hquote]
      simp [pairs]

theorem loosened_replicate (count : Nat) (rest : List Char) :
    loosened false (List.replicate count backslash ++ rest) =
      pairs count ++ loosened (count % 2 = 1) rest := by
  induction count using Nat.twoStepInduction with
  | zero =>
      simp
  | one =>
      simp [pairs]
  | more count ih _ =>
      simp [pairs_add_two, List.replicate_succ, ih]

/-- What is dropped from a text is dropped as well from what is written for it. -/
theorem loosened_escapeQuotes (count : Nat) (text : List Char) :
    loosened false (escapeQuotes count text) = pairs count ++ loosened (count % 2 = 1) text := by
  induction text using readerInduction generalizing count with
  | nil =>
      rw [escapeQuotes]
      simpa using loosened_replicate count []
  | backslash rest ih =>
      rw [escapeQuotes_backslash, ih, loosened_backslash]
      by_cases hodd : count % 2 = 1
      · have heven : (count + 1) % 2 ≠ 1 := by omega
        simp [hodd, heven, pairs_succ_of_odd hodd]
      · have hheld : (count + 1) % 2 = 1 := by omega
        simp [hodd, hheld, pairs_succ_of_even hodd]
  | doubleQuote rest ih =>
      rw [escapeQuotes_doubleQuote, loosened_replicate, pairs_succ_of_even (by omega),
        pairs_two_mul]
      simp [ih, pairs]
  | other c rest hbackslash hquote ih =>
      rw [escapeQuotes_other count hbackslash hquote, loosened_replicate,
        loosened_other _ hbackslash hquote, loosened_other _ hbackslash hquote, ih]
      simp [pairs]

/-- Nothing that is dropped makes a difference to what is written. -/
theorem escapeQuotes_loosened (half : Nat) (held : Bool) (text : List Char) :
    escapeQuotes (2 * half) (loosened held text) = escapeQuotes (2 * half + held.toNat) text := by
  induction text using readerInduction generalizing half held with
  | nil =>
      cases held <;> simp [loosened, escapeQuotes]
  | backslash rest ih =>
      cases held with
      | false =>
          simpa using ih half true
      | true =>
          simpa [Nat.mul_add] using ih (half + 1) false
  | doubleQuote rest ih =>
      have hhalf : (2 * half + 1) / 2 = half := by omega
      cases held <;> simpa [hhalf] using ih 0 false
  | other c rest hbackslash hquote ih =>
      have hrest := ih 0 false
      rw [loosened_other _ hbackslash hquote, escapeQuotes_other _ hbackslash hquote]
      cases held <;> simpa [escapeQuotes_other _ hbackslash hquote] using hrest

/-- The same is written for two texts exactly if they differ in backslashes that are dropped. -/
theorem quoted_eq_iff {left right : List Char} :
    quoted left = quoted right ↔ loosened false left = loosened false right := by
  have hwritten (text : List Char) : loosened false (escapeQuotes 0 text) = loosened false text := by
    simpa using loosened_escapeQuotes 0 text
  have hdropped (text : List Char) : escapeQuotes 0 (loosened false text) = escapeQuotes 0 text :=
    escapeQuotes_loosened 0 false text
  rw [quoted, quoted, List.cons_append, List.cons_append, List.cons_inj_right,
    List.append_left_inj]
  constructor
  · intro h
    rw [← hwritten left, h, hwritten right]
  · intro h
    rw [← hdropped left, h, hdropped right]

theorem not_isWord_of_quote (rest : List Char) : isWord (doubleQuote :: rest) = false :=
  rfl

theorem not_isNumeral_of_quote (rest : List Char) : isNumeral (doubleQuote :: rest) = false :=
  rfl

/-- What stands between quotes is an identifier for the text that is read. -/
theorem denotes_quoted_iff {text meant : List Char} :
    Denotes (quoted text) meant ↔ endsHeld false text = false ∧ loosened false text = meant := by
  have hread : readQuoted false (escapeQuotes 0 text ++ [doubleQuote]) = readBack false text := by
    simpa using readQuoted_escapeQuotes 0 text
  rw [quoted, List.cons_append]
  constructor
  · intro h
    generalize hwritten : doubleQuote :: (escapeQuotes 0 text ++ [doubleQuote]) = written at h
    cases h with
    | plain hform =>
        rw [← hwritten, not_isWord_of_quote, not_isNumeral_of_quote] at hform
        simp at hform
    | quoted h =>
        obtain ⟨_, rfl⟩ := List.cons.inj hwritten
        rw [hread, readBack] at h
        split at h
        · cases h
        · rename_i hends
          exact ⟨Bool.not_eq_true _ ▸ hends, (Prod.mk.inj (Option.some.inj h)).1⟩
  · rintro ⟨hends, rfl⟩
    refine .quoted ?_
    rw [hread, readBack, hends]
    rfl

end Writing

/-- A text without double quotes is read as it is. -/
theorem loosened_of_notMem {text : List Char} (h : doubleQuote ∉ text) (held : Bool) :
    loosened held text = (if held then [backslash] else []) ++ text := by
  induction text using readerInduction generalizing held with
  | nil =>
      simp [loosened]
  | backslash rest ih =>
      have hrest := ih (List.not_mem_of_not_mem_cons h)
      cases held <;> simp [hrest]
  | doubleQuote rest =>
      exact absurd List.mem_cons_self h
  | other c rest hbackslash hquote ih =>
      rw [loosened_other _ hbackslash hquote, ih (List.not_mem_of_not_mem_cons h)]
      cases held <;> rfl

/-- No double quote is dropped. -/
theorem mem_loosened {text : List Char} (h : doubleQuote ∈ text) (held : Bool) :
    doubleQuote ∈ loosened held text := by
  induction text using readerInduction generalizing held with
  | nil =>
      cases h
  | backslash rest ih =>
      have hrest := ih ((List.mem_cons.mp h).resolve_left doubleQuote_ne_backslash)
      cases held <;> simp [hrest]
  | doubleQuote rest =>
      exact List.mem_cons_self
  | other c rest hbackslash hquote ih =>
      have hrest := ih ((List.mem_cons.mp h).resolve_left (Ne.symm hquote))
      rw [loosened_other _ hbackslash hquote]
      exact List.mem_append_right _ (hrest false)

theorem endsHeld_of_notMem {text : List Char} (h : backslash ∉ text) : endsHeld false text = false := by
  induction text with
  | nil =>
      rfl
  | cons c rest ih =>
      have hc : c ≠ backslash := fun heq => h (heq ▸ List.mem_cons_self)
      rw [endsHeld_other _ hc, ih (List.not_mem_of_not_mem_cons h)]

/-- A text that is a word, if it can stand for itself at all. -/
def WordIfPlain (text : String) : Prop :=
  isPlain text.toList = true → isWord text.toList = true

section Identifiers

variable {text left right : String}

theorem notMem_of_isWord {text : List Char} (h : isWord text = true) {c : Char}
    (hletter : isLetter c = false) (hdigit : c.isDigit = false) : c ∉ text := by
  intro hmem
  cases text with
  | nil =>
      cases hmem
  | cons first rest =>
      simp only [isWord, Bool.and_eq_true, List.all_eq_true, Bool.or_eq_true] at h
      rcases List.mem_cons.mp hmem with rfl | hrest
      · simp [h.1] at hletter
      · simpa [hletter, hdigit] using h.2 c hrest

theorem not_isMarkup_of_isWord {text : List Char} (h : isWord text = true) :
    isMarkup text = false := by
  cases text with
  | nil =>
      rfl
  | cons first rest =>
      have hfirst : first ≠ '<' := by
        rintro rfl
        cases h
      simp [isMarkup, hfirst]

theorem dropFinalLineFeed_of_isWord {text : List Char} (h : isWord text = true) :
    dropFinalLineFeed text = text := by
  have hnone : '\n' ∉ text := notMem_of_isWord h (by decide) (by decide)
  exact if_neg fun hlast => hnone (List.mem_of_getLast? hlast)

theorem not_isDigit_of_isLetter {c : Char} (h : isLetter c = true) : c.isDigit = false := by
  rw [Bool.eq_false_iff]
  intro hdigit
  have hsmall : c.val ≤ 57 := of_decide_eq_true (Bool.and_eq_true_iff.mp hdigit).2
  rw [isLetter, Bool.or_eq_true] at h
  rcases h with halpha | hlow
  · rcases Bool.or_eq_true_iff.mp halpha with hupper | hlower
    · have hlarge : (65 : UInt32) ≤ c.val := (of_decide_eq_true hupper).1
      exact absurd (UInt32.le_trans hlarge hsmall) (by decide)
    · have hlarge : (97 : UInt32) ≤ c.val :=
        of_decide_eq_true (Bool.and_eq_true_iff.mp hlower).1
      exact absurd (UInt32.le_trans hlarge hsmall) (by decide)
  · rw [of_decide_eq_true hlow] at hdigit
    cases hdigit

/-- A text that begins with a letter and has a colon has to be quoted. -/
theorem not_isPlain_of_colon
    {first : Char}
    {rest : List Char}
    (hfirst : isLetter first = true)
    (hcolon : ':' ∈ rest) :
    isPlain (first :: rest) = false := by
  have hbody : ∃ body, dropFinalLineFeed (first :: rest) = first :: body ∧ ':' ∈ body := by
    rw [dropFinalLineFeed]
    split
    · rename_i hlast
      rcases List.eq_nil_or_concat' rest with rfl | ⟨front, last, rfl⟩
      · cases hcolon
      · rw [← List.cons_append, List.getLast?_concat, Option.some.injEq] at hlast
        subst hlast
        refine ⟨front, by rw [← List.cons_append, List.dropLast_concat], ?_⟩
        exact (List.mem_append.mp hcolon).resolve_right (by decide)
    · exact ⟨rest, rfl, hcolon⟩
  obtain ⟨body, hbody, hmem⟩ := hbody
  have hdigit : first.isDigit = false := not_isDigit_of_isLetter hfirst
  have hmarkup : isMarkup (first :: body) = false := by
    have hopen : first ≠ '<' := by
      rintro rfl
      cases hfirst
    simp [isMarkup, hopen]
  have hword : isWord (first :: body) = false := by
    rw [Bool.eq_false_iff]
    intro h
    exact notMem_of_isWord h (by decide) (by decide) (List.mem_cons_of_mem first hmem)
  have hnumeral : isNumeral (first :: body) = false := by
    have hminus : first ≠ '-' := by
      rintro rfl
      cases hfirst
    have hpoint : first ≠ '.' := by
      rintro rfl
      cases hfirst
    simp [isNumeral, isUnsignedNumeral, hdigit, hminus, hpoint]
  simp [isPlain, hbody, hmarkup, hword, hnumeral]

theorem wordIfPlain_of_colon
    (hword : isWord left.toList = true)
    (hcolon : ':' ∈ right.toList) :
    WordIfPlain (left ++ right) := by
  intro hplain
  cases hleft : left.toList with
  | nil =>
      rw [hleft] at hword
      cases hword
  | cons first rest =>
      rw [hleft, isWord, Bool.and_eq_true] at hword
      rw [String.toList_append, hleft, List.cons_append,
        not_isPlain_of_colon hword.1 (List.mem_append_right rest hcolon)] at hplain
      cases hplain

/-- A word that can stand for itself is not written in any other way. -/
theorem word_stands_for_itself (h : WordIfPlain text) (hplain : isPlain text.toList = true) :
    identifier text = text ∧ Denotes text.toList text.toList ∧
      loosened false text.toList = text.toList ∧ endsHeld false text.toList = false := by
  have hword := h hplain
  have hreserved : isReserved text.toList = false := by
    simpa [isPlain, dropFinalLineFeed_of_isWord hword, not_isMarkup_of_isWord hword, hword]
      using hplain
  have hquote : doubleQuote ∉ text.toList := notMem_of_isWord hword (by decide) (by decide)
  have hbackslash : backslash ∉ text.toList := notMem_of_isWord hword (by decide) (by decide)
  exact ⟨if_pos hplain, .plain (.inl hword) hreserved, loosened_of_notMem hquote false,
    endsHeld_of_notMem hbackslash⟩

/-- What is written for a text is a complete identifier exactly if the backslashes at its end are
even in number. -/
theorem exists_denotes_identifier_iff (h : WordIfPlain text) :
    (∃ meant, Denotes (identifier text).toList meant) ↔ Even (finalBackslashes text.toList) := by
  rw [← endsHeld_eq_false_iff]
  by_cases hplain : isPlain text.toList = true
  · obtain ⟨hself, hdenotes, _, hends⟩ := word_stands_for_itself h hplain
    rw [hself]
    exact ⟨fun _ => hends, fun _ => ⟨_, hdenotes⟩⟩
  · rw [identifier, if_neg hplain, String.toList_ofList]
    simp only [denotes_quoted_iff, exists_and_left, exists_eq', and_true]

/-- What is written for a text stands for it exactly if backslashes stand in pairs wherever a
double quote or the end follows. -/
theorem denotes_identifier_iff (h : WordIfPlain text) :
    Denotes (identifier text).toList text.toList ↔ Paired text.toList := by
  rw [paired_iff]
  by_cases hplain : isPlain text.toList = true
  · obtain ⟨hself, hdenotes, hloosened, hends⟩ := word_stands_for_itself h hplain
    rw [hself]
    exact ⟨fun _ => ⟨hloosened, hends⟩, fun _ => hdenotes⟩
  · rw [identifier, if_neg hplain, String.toList_ofList, denotes_quoted_iff, and_comm]

theorem identifier_ne_of_isPlain
    (h : WordIfPlain left)
    (hleft : isPlain left.toList = true)
    (hright : ¬ isPlain right.toList = true) :
    identifier left ≠ identifier right ∧
      loosened false left.toList ≠ loosened false right.toList := by
  have hquote : doubleQuote ∉ left.toList := notMem_of_isWord (h hleft) (by decide) (by decide)
  obtain ⟨hself, _, hloosened, _⟩ := word_stands_for_itself h hleft
  rw [hself, hloosened]
  constructor
  · intro heq
    rw [identifier, if_neg hright] at heq
    rw [heq, String.toList_ofList] at hquote
    exact hquote List.mem_cons_self
  · intro heq
    have hnone : doubleQuote ∉ right.toList := fun hmem =>
      hquote (heq ▸ mem_loosened hmem false)
    rw [loosened_of_notMem hnone, if_neg Bool.false_ne_true, List.nil_append] at heq
    rw [heq] at hleft
    exact hright hleft

/-- The same is written for two texts exactly if they differ in nothing but the backslashes that
are dropped before double quotes. -/
theorem identifier_eq_iff (hleft : WordIfPlain left) (hright : WordIfPlain right) :
    identifier left = identifier right ↔
      loosened false left.toList = loosened false right.toList := by
  by_cases hl : isPlain left.toList = true <;> by_cases hr : isPlain right.toList = true
  · obtain ⟨hleftself, _, hleftkept, _⟩ := word_stands_for_itself hleft hl
    obtain ⟨hrightself, _, hrightkept, _⟩ := word_stands_for_itself hright hr
    rw [hleftself, hrightself, hleftkept, hrightkept, String.toList_inj]
  · obtain ⟨hne, hne'⟩ := identifier_ne_of_isPlain hleft hl hr
    exact ⟨fun heq => absurd heq hne, fun heq => absurd heq hne'⟩
  · obtain ⟨hne, hne'⟩ := identifier_ne_of_isPlain hright hr hl
    exact ⟨fun heq => absurd heq.symm hne, fun heq => absurd heq.symm hne'⟩
  · rw [identifier, identifier, if_neg hl, if_neg hr, String.ofList_inj, quoted_eq_iff]

end Identifiers

end SimpleC.Dot
