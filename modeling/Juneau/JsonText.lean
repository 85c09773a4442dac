import Mathlib.Data.List.TakeWhile

/-! Reading the start of a text as JSON: strings, null, and lists of anything between two brackets,
with the grammar of what each reader takes from the text. -/

namespace JsonText

section White

def isWhite (c : Char) : Bool := c = ' ' || c = '\t' || c = '\r' || c = '\n'

def White (s : List Char) : Prop := ∀ c ∈ s, isWhite c

def skipWhite (s : List Char) : List Char := s.dropWhile isWhite

theorem skipWhite_eq (s : List Char) : ∃ ws, s = ws ++ skipWhite s ∧ White ws :=
  ⟨s.takeWhile isWhite, List.takeWhile_append_dropWhile.symm, fun _ hc => List.mem_takeWhile_imp hc⟩

theorem skipWhite_append {ws s : List Char} (h : White ws) : skipWhite (ws ++ s) = skipWhite s :=
  List.dropWhile_append_of_pos h

theorem skipWhite_cons {c : Char} (s : List Char) (h : isWhite c = false) :
    skipWhite (c :: s) = c :: s :=
  List.dropWhile_cons_of_neg (by simp [h])

end White

section Strings

def quote : Char := '\x22'

def backslash : Char := '\x5c'

def hexDigit (c : Char) : Option Nat :=
  if '0' ≤ c ∧ c ≤ '9' then some (c.toNat - 48)
  else if 'a' ≤ c ∧ c ≤ 'f' then some (c.toNat - 87)
  else if 'A' ≤ c ∧ c ≤ 'F' then some (c.toNat - 55)
  else none

/-- The character an escape of one letter stands for. -/
def escaped (c : Char) : Option Char :=
  if c = quote ∨ c = backslash ∨ c = '/' then some c
  else if c = 'b' then some '\x08'
  else if c = 'f' then some '\x0c'
  else if c = 'n' then some '\n'
  else if c = 'r' then some '\r'
  else if c = 't' then some '\t'
  else none

/-- What may stand between the quotes of a string. -/
def stringBody : List Char → Bool
  | [] => true
  | c :: cs =>
    if c = backslash then
      match cs with
      | 'u' :: h0 :: h1 :: h2 :: h3 :: rest => [h0, h1, h2, h3].all (fun h => (hexDigit h).isSome) && stringBody rest
      | e :: rest => (escaped e).isSome && stringBody rest
      | [] => false
    else 0x20 ≤ c.toNat && c ≠ quote && stringBody cs

def hex4 (h0 h1 h2 h3 : Char) : Nat :=
  [h0, h1, h2, h3].foldl (fun n h => n * 16 + (hexDigit h).getD 0) 0

/-- The character of two halves, a high one before a low one. -/
def surrogatePair (hi lo : Nat) : Option Char :=
  if 0xD800 ≤ hi ∧ hi < 0xDC00 ∧ 0xDC00 ≤ lo ∧
    lo < 0xE000 then some (Char.ofNat ((hi - 0xD800) * 1024 + (lo - 0xDC00) + 0x10000)) else none

/-- A character as written, or sixteen bits of one. -/
inductive Piece
  | char (c : Char)
  | unit (n : Nat)
  deriving DecidableEq, Repr

def pieces : List Char → List Piece
  | [] => []
  | c :: cs =>
    if c = backslash then
      match cs with
      | 'u' :: h0 :: h1 :: h2 :: h3 :: rest => .unit (hex4 h0 h1 h2 h3) :: pieces rest
      | e :: rest => .char ((escaped e).getD e) :: pieces rest
      | [] => []
    else .char c :: pieces cs

def replacement : Char := Char.ofNat 0xFFFD

/-- The characters of the pieces, with the half of a pair that was read last; half of a pair without
the other is replaced. -/
def join : Option Nat → List Piece → List Char
  | none, [] => []
  | some _, [] => [replacement]
  | half, .char c :: ps => half.elim [] (fun _ => [replacement]) ++ c :: join none ps
  | half, .unit n :: ps =>
    match half.bind (surrogatePair · n) with
    | some r => r :: join none ps
    | none =>
      half.elim [] (fun _ => [replacement]) ++
        if 0xD800 ≤ n ∧ n < 0xDC00 then join (some n) ps
        else (if 0xDC00 ≤ n ∧ n < 0xE000 then replacement else Char.ofNat n) :: join none ps

def unquote (body : List Char) : List Char := join none (pieces body)

/-- The text up to the quote that no backslash stands before, and the text after it. -/
def cutString : List Char → Option (List Char × List Char)
  | [] => none
  | c :: cs =>
    if c = quote then some ([], cs)
    else if c = backslash then
      match cs with
      | [] => none
      | d :: ds => (cutString ds).map fun (body, rest) => (c :: d :: body, rest)
    else (cutString cs).map fun (body, rest) => (c :: body, rest)

def readString (s : List Char) : Option (String × List Char) :=
  match s with
  | [] => none
  | c :: cs =>
    if c = quote then
      (cutString cs).bind fun (body, rest) => if stringBody body then some (String.ofList (unquote body), rest) else none
    else none

def StringText (text : String) (s : List Char) : Prop :=
  ∃ body, s = quote :: body ++ [quote] ∧ stringBody body ∧ text = String.ofList (unquote body)

end Strings

/-- What a reader takes from the text stands for the value by the grammar, and the rest is what it
leaves. -/
def Reads {α : Type} (read : List Char → Option (α × List Char)) (Text : α → List Char → Prop) :
    Prop :=
  ∀ {s x rest}, read s = some (x, rest) → ∃ v, s = v ++ rest ∧ Text x v

/-- The converse: a text of the grammar is read whole, whatever comes behind it. -/
def Takes {α : Type} (read : List Char → Option (α × List Char)) (Text : α → List Char → Prop) :
    Prop :=
  ∀ ⦃x v⦄, Text x v → ∀ rest, read (v ++ rest) = some (x, rest)

/-- The texts of the grammar start with one of these characters. -/
def Heads {α : Type} (Text : α → List Char → Prop) (heads : List Char) : Prop :=
  ∀ ⦃x v⦄, Text x v → ∃ c ∈ heads, ∃ tail, v = c :: tail

theorem cutString_eq :
    ∀ {s body rest : List Char}, cutString s = some (body, rest) → s = body ++ quote :: rest
  | [], _, _, h => by cases h
  | c :: cs, body, rest, h => by
    unfold cutString at h
    split at h
    · rename_i hquote
      cases h
      rw [hquote]
      rfl
    · split at h
      · cases cs with
        | nil => cases h
        | cons d ds =>
          obtain ⟨_, hcut, heq⟩ := Option.map_eq_some_iff.mp h
          cases heq
          rw [cutString_eq hcut]
          rfl
      · obtain ⟨_, hcut, heq⟩ := Option.map_eq_some_iff.mp h
        cases heq
        rw [cutString_eq hcut]
        rfl

theorem readString_reads : Reads readString StringText := by
  intro s text rest h
  match s, h with
  | c :: cs, h =>
    unfold readString at h
    dsimp only at h
    split at h
    · rename_i hquote
      obtain ⟨⟨body, rest'⟩, hcut, hrest⟩ := Option.bind_eq_some_iff.mp h
      dsimp only at hrest
      split at hrest
      · rename_i hbody
        cases hrest
        exact ⟨quote :: body ++ [quote], by rw [cutString_eq hcut, hquote]; simp, body, rfl, hbody, rfl⟩
      · cases hrest
    · cases h

theorem hexDigit_plain {c : Char} (h : (hexDigit c).isSome) : c ≠ quote ∧ c ≠ backslash := by
  refine ⟨?_, ?_⟩ <;> rintro rfl <;> revert h <;> decide

theorem cutString_plain {c : Char} {s body rest : List Char} (hquote : c ≠ quote)
    (hslash : c ≠ backslash) (h : cutString s = some (body, rest)) :
    cutString (c :: s) = some (c :: body, rest) := by
  rw [cutString.eq_def]
  dsimp only
  rw [if_neg hquote, if_neg hslash, h]
  rfl

theorem cutString_escape {c : Char} {s body rest : List Char}
    (h : cutString s = some (body, rest)) :
    cutString (backslash :: c :: s) = some (backslash :: c :: body, rest) := by
  rw [cutString.eq_def]
  dsimp only
  rw [if_neg (by decide), if_pos rfl, h]
  rfl

/-- No quote of the body is the one that ends it. -/
theorem cutString_body (rest body : List Char) (h : stringBody body) :
    cutString (body ++ quote :: rest) = some (body, rest) := by
  fun_induction stringBody body with
  | case1 => rw [List.nil_append, cutString.eq_def]; exact if_pos rfl
  | case2 h0 h1 h2 h3 tail ih =>
    simp only [List.all_cons, List.all_nil, Bool.and_true, Bool.and_eq_true] at h
    obtain ⟨⟨hd0, hd1, hd2, hd3⟩, htail⟩ := h
    have hplain {c : Char} {s body : List Char} (hc : (hexDigit c).isSome) :=
      @cutString_plain c s body rest (hexDigit_plain hc).1 (hexDigit_plain hc).2
    exact cutString_escape (hplain hd0 (hplain hd1 (hplain hd2 (hplain hd3 (ih htail)))))
  | case3 e tail _ ih =>
    rw [Bool.and_eq_true] at h
    exact cutString_escape (ih h.2)
  | case4 => cases h
  | case5 c cs hslash ih =>
    simp only [Bool.and_eq_true, decide_eq_true_eq] at h
    exact cutString_plain h.1.2 hslash (ih h.2)

theorem readString_takes : Takes readString StringText := by
  rintro text v ⟨body, rfl, hbody, rfl⟩ rest
  rw [List.append_assoc]
  simp [readString, cutString_body rest body hbody, hbody]

theorem stringText_heads : Heads StringText [quote] := by
  rintro text v ⟨body, rfl, -⟩
  exact ⟨quote, by simp, _, rfl⟩

section Null

def nullText : List Char := "null".toList

def readOrNull {α : Type} (read : List Char → Option (α × List Char)) (s : List Char) :
    Option (Option α × List Char) :=
  if nullText.isPrefixOf s then some (none, s.drop 4) else (read s).map fun (x, rest) =>
    (some x, rest)

def OrNull {α : Type} (Text : α → List Char → Prop) : Option α → List Char → Prop
  | none, s => s = nullText
  | some x, s => Text x s

theorem readOrNull_reads {α : Type} {read : List Char → Option (α × List Char)}
    {Text : α → List Char → Prop} (h : Reads read Text) :
    Reads (readOrNull read) (OrNull Text) := by
  intro s x rest hread
  unfold readOrNull at hread
  split at hread
  · rename_i hnull
    cases hread
    obtain ⟨tail, rfl⟩ := List.isPrefixOf_iff_prefix.mp hnull
    exact ⟨nullText, rfl, rfl⟩
  · obtain ⟨_, hitem, heq⟩ := Option.map_eq_some_iff.mp hread
    cases heq
    obtain ⟨v, hv, htext⟩ := h hitem
    exact ⟨v, hv, htext⟩

theorem readOrNull_takes {α : Type} {read : List Char → Option (α × List Char)}
    {Text : α → List Char → Prop} {heads : List Char} (h : Takes read Text)
    (hheads : Heads Text heads) (hn : 'n' ∉ heads) : Takes (readOrNull read) (OrNull Text) := by
  intro x v htext rest
  cases x with
  | none =>
    obtain rfl : v = nullText := htext
    rfl
  | some x =>
    obtain ⟨c, hc, tail, rfl⟩ := hheads htext
    have hne : 'n' ≠ c := fun heq => hn (heq ▸ hc)
    rw [readOrNull, if_neg (by simp [nullText, hne]), h htext rest]
    rfl

theorem orNull_heads {α : Type} {Text : α → List Char → Prop} {heads : List Char}
    (h : Heads Text heads) : Heads (OrNull Text) ('n' :: heads) := by
  intro x v htext
  cases x with
  | none => exact ⟨'n', by simp, _, htext⟩
  | some x =>
    obtain ⟨c, hc, hv⟩ := h htext
    exact ⟨c, List.mem_cons_of_mem _ hc, hv⟩

end Null

section Lists

variable {α : Type} (read : List Char → Option (α × List Char)) (opening closing : Char)

/-- One item and those after it, up to the closing bracket. Each takes a character of the text, so
that the length of it is enough fuel. -/
def readItems : Nat → List Char → Option (List α × List Char)
  | 0, _ => none
  | n + 1, s =>
    match read (skipWhite s) with
    | none => none
    | some (x, rest) =>
      match skipWhite rest with
      | [] => none
      | c :: rest =>
        if c = closing then some ([x], rest)
        else if c = ',' then (readItems n rest).map fun (xs, rest) => (x :: xs, rest)
        else none

def readList (s : List Char) : Option (List α × List Char) :=
  match s with
  | [] => none
  | o :: s =>
    if o ≠ opening then none
    else
      match skipWhite s with
      | [] => none
      | c :: rest => if c = closing then some ([], rest) else readItems read closing s.length s

/-- Items with white space around them and a comma between them. -/
inductive Items {α : Type} (Text : α → List Char → Prop) : List α → List Char → Prop
  | one {x : α} {pre v post : List Char} :
    White pre → Text x v → White post → Items Text [x] (pre ++ v ++ post)
  | more {x : α} {xs : List α} {pre v post rest : List Char} : White pre → Text x v →
      White post → Items Text xs rest → Items Text (x :: xs) (pre ++ v ++ post ++ ',' :: rest)

inductive ListText {α : Type} (Text : α → List Char → Prop) (opening closing : Char) :
    List α → List Char → Prop
  | empty {ws : List Char} :
    White ws → ListText Text opening closing [] (opening :: ws ++ [closing])
  | items {xs : List α} {body : List Char} :
    Items Text xs body → ListText Text opening closing xs (opening :: body ++ [closing])

variable {read opening closing} {Text : α → List Char → Prop}

theorem readItems_eq (h : Reads read Text) {n : Nat} {s rest : List Char}
    {xs : List α} (hread : readItems read closing n s = some (xs, rest)) :
    ∃ body, s = body ++ closing :: rest ∧ Items Text xs body := by
  induction n generalizing s xs with
  | zero => cases hread
  | succ n ih =>
    obtain ⟨pre, hpre, hwhite⟩ := skipWhite_eq s
    unfold readItems at hread
    split at hread
    · cases hread
    · rename_i x tail hitem
      obtain ⟨v, hv, htext⟩ := h hitem
      obtain ⟨post, hpost, hwhite'⟩ := skipWhite_eq tail
      split at hread
      · cases hread
      · rename_i c tail' hskip
        have hs : s = pre ++ v ++ post ++ c :: tail' := by rw [hpre, hv, hpost, hskip]; simp
        split at hread
        · rename_i hclose
          cases hread
          exact ⟨_, hclose ▸ hs, .one hwhite htext hwhite'⟩
        · split at hread
          · rename_i hcomma
            obtain ⟨_, hmore, heq⟩ := Option.map_eq_some_iff.mp hread
            cases heq
            obtain ⟨body, hbody, hitems⟩ := ih hmore
            exact ⟨_, by rw [hs, hcomma, hbody]; simp, .more hwhite htext hwhite' hitems⟩
          · cases hread

theorem readList_reads (h : Reads read Text) :
    Reads (readList read opening closing) (ListText Text opening closing) := by
  intro s xs rest hread
  unfold readList at hread
  split at hread
  · cases hread
  · rename_i o s
    split at hread
    · cases hread
    · rename_i hopen
      obtain ⟨ws, hws, hwhite⟩ := skipWhite_eq s
      split at hread
      · cases hread
      · rename_i c tail hskip
        split at hread
        · rename_i hclose
          cases hread
          exact ⟨_, by rw [not_not.mp hopen, hws, hskip, hclose]; simp, .empty hwhite⟩
        · obtain ⟨body, hbody, hitems⟩ := readItems_eq h hread
          exact ⟨_, by rw [not_not.mp hopen, hbody]; simp, .items hitems⟩

variable {heads : List Char}

theorem Items.length_le (hheads : Heads Text heads) {xs : List α} {body : List Char}
    (h : Items Text xs body) : xs.length ≤ body.length := by
  induction h with
  | one _ htext _ =>
    obtain ⟨c, -, tail, rfl⟩ := hheads htext
    simp
    omega
  | more _ htext _ _ ih =>
    simp
    omega

theorem readItems_takes (h : Takes read Text) (hheads : Heads Text heads)
    (hwhite : ∀ c ∈ heads, isWhite c = false) (hclosing : isWhite closing = false ∧ closing ≠ ',')
    {xs : List α} {body : List Char} (hitems : Items Text xs body) {n : Nat} (hn : xs.length ≤ n)
    (rest : List Char) : readItems read closing n (body ++ closing :: rest) = some (xs, rest) := by
  have hskip {x : α} {pre v : List Char} (hpre : White pre) (htext : Text x v) (s : List Char) :
      skipWhite (pre ++ (v ++ s)) = v ++ s := by
    obtain ⟨c, hc, tail, rfl⟩ := hheads htext
    rw [skipWhite_append hpre, List.cons_append, skipWhite_cons _ (hwhite c hc)]
  induction hitems generalizing n with
  | one hpre htext hpost =>
    obtain ⟨n, rfl⟩ : ∃ m, n = m + 1 := ⟨n - 1, by simp at hn; omega⟩
    rw [List.append_assoc, List.append_assoc, readItems, hskip hpre htext, h htext]
    dsimp only
    rw [skipWhite_append hpost, skipWhite_cons _ hclosing.1]
    simp
  | more hpre htext hpost _ ih =>
    obtain ⟨n, rfl⟩ : ∃ m, n = m + 1 := ⟨n - 1, by simp at hn; omega⟩
    rw [List.append_assoc, List.append_assoc, List.append_assoc, readItems, hskip hpre htext, h htext]
    dsimp only
    rw [skipWhite_append hpost, List.cons_append, skipWhite_cons _ (by decide)]
    simp [hclosing.2.symm, ih (by simpa using hn)]

variable (opening closing) in
theorem readList_takes (h : Takes read Text) (hheads : Heads Text heads)
    (hwhite : ∀ c ∈ heads, isWhite c = false ∧ c ≠ closing) (hclosing : isWhite closing = false ∧
    closing ≠ ',') : Takes (readList read opening closing) (ListText Text opening closing) := by
  intro xs v htext rest
  cases htext with
  | empty hws =>
    simp [readList, skipWhite_append hws, skipWhite_cons _ hclosing.1]
  | @items _ body hitems =>
    have hread (n : Nat) (hn : body.length ≤ n) :=
      readItems_takes h hheads (fun c hc => (hwhite c hc).1) hclosing hitems ((hitems.length_le hheads).trans hn) rest
    obtain ⟨pre, c, tail, hpre, hc, rfl⟩ : ∃ pre c tail, White pre ∧ c ∈ heads ∧ body = pre ++ c :: tail := by
      cases hitems with
      | one hpre htext _ | more hpre htext _ _ =>
        obtain ⟨c, hc, tail, rfl⟩ := hheads htext
        exact ⟨_, c, _, hpre, hc, by simp only [List.append_assoc, List.cons_append]; rfl⟩
    simp only [List.cons_append, List.append_assoc, List.nil_append, readList] at hread ⊢
    rw [skipWhite_append hpre, skipWhite_cons _ (hwhite c hc).1]
    simp only [(hwhite c hc).2, if_false, ne_eq, not_true_eq_false]
    exact hread _ (by simp)

theorem listText_heads : Heads (ListText Text opening closing) [opening] := by
  intro xs v htext
  cases htext <;> exact ⟨opening, by simp, _, rfl⟩

end Lists

section Pairs

/-- Keys match but for their case; two letters have a third form outside ASCII. -/
def foldKey (key : String) : List Char :=
  key.toList.map fun c =>
    if c.toNat = 0x212A then 'K' else if c.toNat = 0x017F then 'S' else c.toUpper

variable {α : Type} (read : String → List Char → Option (α × List Char))

/-- A key, and after a colon the value that is read for it. -/
def readPair (s : List Char) : Option (α × List Char) :=
  (readString s).bind fun (key, rest) =>
    match skipWhite rest with
    | [] => none
    | c :: rest => if c = ':' then read key (skipWhite rest) else none

inductive PairText (Text : String → α → List Char → Prop) : α → List Char → Prop
  | mk {key : String} {x : α} {k pre post v : List Char} : StringText key k →
      White pre → White post → Text key x v → PairText Text x (k ++ pre ++ ':' :: post ++ v)

variable {read} {Text : String → α → List Char → Prop}

theorem readPair_reads (h : ∀ key, Reads (read key) (Text key)) :
    Reads (readPair read) (PairText Text) := by
  intro s x rest hread
  obtain ⟨⟨key, tail⟩, hkey, hread⟩ := Option.bind_eq_some_iff.mp hread
  obtain ⟨k, hk, hktext⟩ := readString_reads hkey
  obtain ⟨pre, hpre, hwhite⟩ := skipWhite_eq tail
  dsimp only at hread
  split at hread
  · cases hread
  · rename_i c value hskip
    split at hread
    · rename_i hcolon
      obtain ⟨post, hpost, hwhite'⟩ := skipWhite_eq value
      obtain ⟨v, hv, htext⟩ := h key hread
      exact ⟨_, by rw [hk, hpre, hskip, hcolon, hpost, hv]; simp, .mk hktext hwhite hwhite' htext⟩
    · cases hread

theorem readPair_takes (h : ∀ key, Takes (read key) (Text key)) {heads : List Char}
    (hheads : ∀ key, Heads (Text key) heads) (hwhite : ∀ c ∈ heads, isWhite c = false) :
    Takes (readPair read) (PairText Text) := by
  rintro x _ ⟨hkey, hpre, hpost, htext⟩ rest
  obtain ⟨c, hc, tail, rfl⟩ := hheads _ htext
  simp only [List.append_assoc, List.cons_append, readPair, readString_takes hkey,
    Option.bind_some, skipWhite_append hpre]
  rw [skipWhite_cons _ (by decide)]
  dsimp only
  rw [if_pos rfl, skipWhite_append hpost, skipWhite_cons _ (hwhite c hc)]
  exact h _ htext rest

theorem pairText_heads : Heads (PairText Text) [quote] := by
  rintro x _ ⟨⟨body, rfl, -⟩, -⟩
  exact ⟨quote, by simp, _, rfl⟩

end Pairs

end JsonText
