import Mathlib.Data.List.Basic
import Mathlib.Data.List.TakeWhile
import TapeMachine.Json.Reader
import TapeMachine.Json.Writer

/-!
# Written JSON is read back

A value is legible if its strings are texts and its numbers are whole numbers in decimal
(`Json.Legible`). A legible value is read back from the text it is written as
(`Json.parse?_render`).

What is proved of every reader is what it makes of the characters of a part with any characters
after them. In strings these can be anything, since the closing quote stands for itself alone and
every other quote is escaped (`Json.units?_escape`). After a value they must not go on with it: a
number ends where a comma, a closing bracket or the end of the text follows (`Json.Follows`). The
readers of nested values need no more calls than a value has characters (`Json.ReadsBack`).
-/

namespace TapeMachine.Json

variable {rest : List Char} {calls : Nat}

/-! ## Strings -/

theorem hexValue?_hexDigit : ∀ n < 16, hexValue? (hexDigit n) = some n := by
  decide

/-- The digits of a number below 256 are read as the number. -/
theorem hex4?_hexDigit {n : Nat} (h : n < 256) :
    hex4? '0' '0' (hexDigit (n / 16)) (hexDigit (n % 16)) = some n := by
  have hzero : hexValue? '0' = some 0 := by decide
  have hhigh := hexValue?_hexDigit (n / 16) (by omega)
  have hlow := hexValue?_hexDigit (n % 16) (by omega)
  simp only [hex4?, hzero, hhigh, hlow, Option.bind_eq_bind, Option.bind_some, Option.pure_def,
    Option.some.injEq]
  omega

section

variable (before : List TextUnit) (rest : List Char)

theorem units?_quote : units? before ('"' :: rest) = some (before.reverse, rest) := by
  rw [units?.eq_def]
  exact if_pos rfl

theorem units?_short {e c : Char} (hu : e ≠ 'u') (he : shortEscape? e = some c) :
    units? before ('\\' :: e :: rest) = units? (.char c :: before) rest := by
  rw [units?.eq_def]
  simp [hu, he]

theorem units?_hex {a b c d : Char} {n : Nat} (h : hex4? a b c d = some n) :
    units? before ('\\' :: 'u' :: a :: b :: c :: d :: rest) =
      units? (unitOf n :: before) rest := by
  rw [units?.eq_def]
  simp [h]

theorem units?_raw {c : Char} (hquote : c ≠ '"') (hslash : c ≠ '\\') (hraw : ¬c.toNat < 0x20) :
    units? before (c :: rest) = units? (.char c :: before) rest := by
  rw [units?.eq_def]
  simp [hquote, hslash, hraw]

/-- An escaped character is read as the character. -/
theorem units?_escape (c : Char) :
    units? before (escape c ++ rest) = units? (.char c :: before) rest := by
  unfold escape
  split_ifs with hquote hslash h₁ h₂ h₃ h₄ h₅ hcontrol
  · exact units?_short before rest (by decide) (by rw [hquote]; rfl)
  · exact units?_short before rest (by decide) (by rw [hslash]; rfl)
  · exact units?_short before rest (by decide) (by rw [h₁]; rfl)
  · exact units?_short before rest (by decide) (by rw [h₂]; rfl)
  · exact units?_short before rest (by decide) (by rw [h₃]; rfl)
  · exact units?_short before rest (by decide) (by rw [h₄]; rfl)
  · exact units?_short before rest (by decide) (by rw [h₅]; rfl)
  · have hunit : unitOf c.toNat = .char c := by
      rw [unitOf, if_neg (by omega), Char.ofNat_toNat]
    rw [← hunit]
    exact units?_hex before rest (hex4?_hexDigit (by omega))
  · exact units?_raw before rest hquote hslash hcontrol

end

theorem units?_text (s : List Char) (before : List TextUnit) (rest : List Char) :
    units? before (s.flatMap escape ++ '"' :: rest) =
      some (before.reverse ++ s.map .char, rest) := by
  induction s generalizing before with
  | nil => simp [units?_quote]
  | cons c s ih =>
    rw [List.flatMap_cons, List.append_assoc, units?_escape, ih]
    simp

theorem assemble_map_char (s : List Char) : assemble (s.map .char) = some s := by
  induction s with
  | nil => rfl
  | cons c s ih => simp [assemble, ih]

/-- A written text is read back up to its closing quote. -/
theorem string?_text (s rest : List Char) :
    string? (s.flatMap escape ++ '"' :: rest) = some (some s, rest) := by
  rw [string?, units?_text]
  simp [assemble_map_char]

theorem renderString_append (s rest : List Char) :
    renderString (some s) ++ rest = '"' :: (s.flatMap escape ++ '"' :: rest) := by
  simp [renderString]

/-! ## Numbers -/

/-- The characters can follow a value in a text without blanks. -/
def Follows (rest : List Char) : Prop :=
  ∀ c ∈ rest.head?, c = ',' ∨ c = ']' ∨ c = '\x7d'

theorem follows_nil : Follows [] := by
  simp [Follows]

theorem follows_cons {c : Char} (h : c = ',' ∨ c = ']' ∨ c = '\x7d') : Follows (c :: rest) := by
  simpa [Follows] using h

/-- A whole number in decimal begins with a digit. -/
theorem exists_toDigits_eq_cons (n : Nat) :
    ∃ c ds, Nat.toDigits 10 n = c :: ds ∧ c.isDigit = true := by
  obtain ⟨c, ds, hc⟩ := List.exists_cons_of_ne_nil (Nat.toDigits_ne_nil (n := n) (b := 10))
  have hmem : c ∈ Nat.toDigits 10 n := by simp [hc]
  exact ⟨c, ds, hc, Nat.isDigit_of_mem_toDigits (by decide) (by decide) hmem⟩

/-- A whole number in decimal is a zero, or does not begin with one. -/
theorem head?_toDigits_ne (n : Nat) (h : n ≠ 0) : (Nat.toDigits 10 n).head? ≠ some '0' := by
  induction n using Nat.strongRecOn with
  | ind n ih =>
    by_cases hn : n < 10
    · rw [Nat.toDigits_of_lt_base hn]
      have hdigit : ∀ k < 10, k ≠ 0 → k.digitChar ≠ '0' := by decide
      simpa using hdigit n hn h
    · rw [Nat.toDigits_of_base_le (by decide) (by omega),
        List.head?_append_of_ne_nil _ Nat.toDigits_ne_nil]
      exact ih (n / 10) (by omega) (by omega)

theorem takeWhile_toDigits (n : Nat) (h : Follows rest) :
    (Nat.toDigits 10 n ++ rest).takeWhile Char.isDigit = Nat.toDigits 10 n ∧
      (Nat.toDigits 10 n ++ rest).dropWhile Char.isDigit = rest := by
  have hdigits : ∀ c ∈ Nat.toDigits 10 n, c.isDigit = true := fun c hc =>
    Nat.isDigit_of_mem_toDigits (by decide) (by decide) hc
  have hrest : rest.takeWhile Char.isDigit = [] ∧ rest.dropWhile Char.isDigit = rest := by
    cases rest with
    | nil => simp
    | cons c rest =>
      have hc : c.isDigit = false := by
        rcases h c rfl with rfl | rfl | rfl <;> rfl
      simp [hc]
  rw [List.takeWhile_append_of_pos hdigits, List.dropWhile_append_of_pos hdigits, hrest.1, hrest.2,
    List.append_nil]
  exact ⟨rfl, rfl⟩

theorem wholePart?_toDigits (n : Nat) (h : Follows rest) :
    wholePart? (Nat.toDigits 10 n ++ rest) = some (Nat.toDigits 10 n, rest) := by
  by_cases hn : n = 0
  · subst hn
    rfl
  · have hdigits : digits? (Nat.toDigits 10 n ++ rest) = some (Nat.toDigits 10 n, rest) := by
      rw [digits?, (takeWhile_toDigits n h).1, (takeWhile_toDigits n h).2, if_neg]
      exact Nat.toDigits_ne_nil
    have hhead := head?_toDigits_ne n hn
    obtain ⟨c, ds, hc⟩ := List.exists_cons_of_ne_nil (Nat.toDigits_ne_nil (n := n) (b := 10))
    rw [hc, List.head?_cons, ne_eq, Option.some.injEq] at hhead
    rw [hc, List.cons_append] at hdigits ⊢
    unfold wholePart?
    split
    next heq => exact absurd (List.cons.inj heq).1 hhead
    next => exact hdigits

theorem fraction?_of_follows (h : Follows rest) : fraction? rest = some ([], rest) := by
  unfold fraction?
  split
  next => exact absurd (h '.' rfl) (by decide)
  next => rfl

theorem exponent?_of_follows (h : Follows rest) : exponent? rest = some ([], rest) := by
  unfold exponent?
  split
  next => rfl
  next c rest =>
    rw [if_neg]
    rintro (rfl | rfl)
    · exact absurd (h 'e' rfl) (by decide)
    · exact absurd (h 'E' rfl) (by decide)

theorem unsigned?_toDigits (n : Nat) (h : Follows rest) :
    unsigned? (Nat.toDigits 10 n ++ rest) = some (Nat.toDigits 10 n, rest) := by
  simp [unsigned?, wholePart?_toDigits n h, fraction?_of_follows h, exponent?_of_follows h]

/-! ## Values -/

/-- A value whose strings are texts and whose numbers are whole numbers in decimal. -/
inductive Legible : Json → Prop
  | null : Legible .null
  | bool (b : Bool) : Legible (.bool b)
  | nat (n : Nat) : Legible (.nat n)
  | string (s : List Char) : Legible (.string (some s))
  | array {items : List Json} (items_legible : ∀ item ∈ items, Legible item) :
      Legible (.array items)
  | object {members : List (Option (List Char) × Json)}
      (keys_legible : ∀ m ∈ members, m.1.isSome = true)
      (values_legible : ∀ m ∈ members, Legible m.2) : Legible (.object members)

/-- The characters of a value are read as the value, whatever can follow it, with as many calls as
there are characters. -/
def ReadsBack (j : Json) : Prop :=
  ∀ calls rest, j.chars.length ≤ calls → Follows rest →
    value? calls (j.chars ++ rest) = some (j, rest)

theorem skipBlanks_cons {c : Char} (h : isBlank c = false) :
    skipBlanks (c :: rest) = c :: rest := by
  rw [skipBlanks, List.dropWhile_cons_of_neg (by simp [h])]

theorem value?_of_scalar {c : Char} (hblank : isBlank c = false) (harray : c ≠ '[')
    (hobject : c ≠ '\x7b') : value? (calls + 1) (c :: rest) = scalar? (c :: rest) := by
  rw [value?, skipBlanks_cons hblank]
  split
  next heq => exact absurd (List.cons.inj heq).1 harray
  next heq => exact absurd (List.cons.inj heq).1 hobject
  next => rfl

theorem readsBack_null : ReadsBack .null := by
  rintro (_ | calls) rest hlen -
  · simp [chars] at hlen
  · exact value?_of_scalar (by decide) (by decide) (by decide)

theorem readsBack_bool (b : Bool) : ReadsBack (.bool b) := by
  rintro (_ | calls) rest hlen -
  · cases b <;> simp [chars] at hlen
  · cases b <;> exact value?_of_scalar (by decide) (by decide) (by decide)

theorem readsBack_string (s : List Char) : ReadsBack (.string (some s)) := by
  rintro (_ | calls) rest hlen -
  · simp [chars, renderString] at hlen
  · rw [chars, renderString_append, value?_of_scalar (by decide) (by decide) (by decide), scalar?]
    simp [string?_text]

theorem isBlank_of_isDigit {c : Char} (h : c.isDigit = true) : isBlank c = false := by
  by_contra hblank
  simp only [isBlank, Bool.not_eq_false, Bool.or_eq_true, decide_eq_true_eq, or_assoc] at hblank
  rcases hblank with rfl | rfl | rfl | rfl <;> exact absurd h (by decide)

theorem readsBack_nat (n : Nat) : ReadsBack (.nat n) := by
  obtain ⟨c, ds, hc, hdigit⟩ := exists_toDigits_eq_cons n
  have hne : ∀ d, d.isDigit = false → c ≠ d := by
    rintro d hd rfl
    rw [hdigit] at hd
    cases hd
  rintro (_ | calls) rest hlen hrest
  · simp [Json.nat, chars, Nat.toDigits_ne_nil] at hlen
  · have hread := unsigned?_toDigits n hrest
    rw [Json.nat, chars, hc, List.cons_append] at *
    rw [value?_of_scalar (isBlank_of_isDigit hdigit) (hne _ rfl) (hne _ rfl), scalar?]
    simp only [hne '"' rfl, hne 'n' rfl, hne 't' rfl, hne 'f' rfl, if_false]
    have hnumber : number? (c :: (ds ++ rest)) = unsigned? (c :: (ds ++ rest)) := by
      unfold number?
      split
      next heq => exact absurd (List.cons.inj heq).1 (hne '-' rfl)
      next => rfl
    rw [hnumber, hread]
    rfl

/-! ## Arrays and objects -/

theorem follows_restOfItems (items : List Json) : Follows (restOfItems items ++ rest) := by
  cases items <;> exact follows_cons (by simp)

theorem follows_restOfMembers (members : List (Option (List Char) × Json)) :
    Follows (restOfMembers members ++ rest) := by
  rcases members with _ | ⟨⟨key, value⟩, members⟩ <;> exact follows_cons (by simp)

/-- The items of an array are read in order up to the closing bracket. -/
theorem items?_chars (rest : List Char) {items : List Json} (h : ∀ item ∈ items, ReadsBack item) :
    ∀ (item : Json) (before : List Json) (calls : Nat), ReadsBack item →
      (item.chars ++ restOfItems items).length ≤ calls →
      items? calls before (item.chars ++ (restOfItems items ++ rest)) =
        some (before.reverse ++ item :: items, rest) := by
  induction items with
  | nil =>
    rintro item before (_ | calls) hitem hlen
    · simp [restOfItems] at hlen
    · simp only [List.length_append, restOfItems, List.length_singleton] at hlen
      rw [items?, hitem calls _ (by omega) (follows_restOfItems []), restOfItems]
      simp [skipBlanks_cons (show isBlank ']' = false by decide)]
  | cons next items ih =>
    rintro item before (_ | calls) hitem hlen
    · simp [restOfItems] at hlen
    · simp only [List.length_append, restOfItems, List.length_cons] at hlen
      rw [items?, hitem calls _ (by omega) (follows_restOfItems _), restOfItems, List.cons_append,
        List.append_assoc]
      simp only [skipBlanks_cons (show isBlank ',' = false by decide)]
      rw [ih (fun j hj => h j (List.mem_cons_of_mem _ hj)) next (item :: before) calls
        (h next List.mem_cons_self) (by rw [List.length_append]; omega)]
      simp

theorem key?_chars (key : List Char) :
    key? (renderString (some key) ++ ':' :: rest) = some (some key, rest) := by
  rw [renderString_append, key?, skipBlanks_cons (by decide)]
  simp [string?_text, skipBlanks_cons (show isBlank ':' = false by decide)]

/-- The members of an object are read in order up to the closing brace. -/
theorem members?_chars (rest : List Char) {members : List (Option (List Char) × Json)}
    (hkeys : ∀ m ∈ members, m.1.isSome = true) (h : ∀ m ∈ members, ReadsBack m.2) :
    ∀ (key : List Char) (value : Json) (before : List (Option (List Char) × Json)) (calls : Nat),
      ReadsBack value →
      (renderString (some key) ++ ':' :: (value.chars ++ restOfMembers members)).length ≤ calls →
      members? calls before
          (renderString (some key) ++ ':' :: (value.chars ++ (restOfMembers members ++ rest))) =
        some (before.reverse ++ (some key, value) :: members, rest) := by
  induction members with
  | nil =>
    rintro key value before (_ | calls) hvalue hlen
    · simp [restOfMembers] at hlen
    · simp only [List.length_append, List.length_cons] at hlen
      have hread := hvalue calls (restOfMembers [] ++ rest) (by omega) (follows_restOfMembers [])
      rw [members?, key?_chars]
      simp only [hread]
      simp [restOfMembers, skipBlanks_cons (show isBlank '\x7d' = false by decide)]
  | cons next members ih =>
    obtain ⟨key', value'⟩ := next
    obtain ⟨key', rfl⟩ := Option.isSome_iff_exists.1 (hkeys _ List.mem_cons_self)
    rintro key value before (_ | calls) hvalue hlen
    · simp [restOfMembers] at hlen
    · simp only [List.length_append, List.length_cons, restOfMembers] at hlen
      have hread := hvalue calls (restOfMembers ((some key', value') :: members) ++ rest) (by omega)
        (follows_restOfMembers _)
      have hnext := ih (fun m hm => hkeys m (List.mem_cons_of_mem _ hm))
        (fun m hm => h m (List.mem_cons_of_mem _ hm)) key' value' ((some key, value) :: before)
        calls (h (some key', value') List.mem_cons_self)
        (by simp only [List.length_append, List.length_cons]; omega)
      rw [members?, key?_chars]
      simp only [hread]
      simp only [restOfMembers, List.cons_append, List.append_assoc,
        skipBlanks_cons (show isBlank ',' = false by decide), hnext]
      simp

/-- What can be read as a value closes no array. -/
theorem skipBlanks_ne_of_value? {s r : List Char} {read : Json × List Char}
    (h : value? calls s = some read) : skipBlanks s ≠ ']' :: r := by
  intro hclose
  cases calls with
  | zero => simp [value?] at h
  | succ calls =>
    rw [value?, hclose] at h
    simp [scalar?, number?, unsigned?, wholePart?, digits?] at h

theorem readsBack_array {items : List Json} (h : ∀ item ∈ items, ReadsBack item) :
    ReadsBack (.array items) := by
  rintro (_ | calls) rest hlen -
  · cases items <;> simp [chars] at hlen
  · cases items with
    | nil =>
      simp [chars, value?, skipBlanks_cons (show isBlank '[' = false by decide),
        skipBlanks_cons (show isBlank ']' = false by decide)]
    | cons item items =>
      obtain ⟨hitem, hitems⟩ := List.forall_mem_cons.1 h
      rw [chars, List.length_cons, Nat.add_le_add_iff_right] at hlen
      have hfirst := hitem calls (restOfItems items ++ rest)
        (by rw [List.length_append] at hlen; omega) (follows_restOfItems items)
      rw [chars, List.cons_append, List.append_assoc, value?, skipBlanks_cons (by decide)]
      simp only
      split
      next hclose => exact absurd hclose (skipBlanks_ne_of_value? hfirst)
      next => simp [items?_chars rest hitems item [] calls hitem hlen]

theorem readsBack_object {members : List (Option (List Char) × Json)}
    (hkeys : ∀ m ∈ members, m.1.isSome = true) (h : ∀ m ∈ members, ReadsBack m.2) :
    ReadsBack (.object members) := by
  rintro (_ | calls) rest hlen -
  · rcases members with _ | ⟨⟨key, value⟩, members⟩ <;> simp [chars] at hlen
  · rcases members with _ | ⟨⟨key, value⟩, members⟩
    · simp [chars, value?, skipBlanks_cons (show isBlank '\x7b' = false by decide),
        skipBlanks_cons (show isBlank '\x7d' = false by decide)]
    · obtain ⟨hkey, htexts⟩ := List.forall_mem_cons.1 hkeys
      obtain ⟨hvalue, hvalues⟩ := List.forall_mem_cons.1 h
      obtain ⟨key, rfl⟩ := Option.isSome_iff_exists.1 hkey
      rw [chars, List.length_cons, Nat.add_le_add_iff_right] at hlen
      have hread := members?_chars rest htexts hvalues key value [] calls hvalue hlen
      rw [chars, List.cons_append, List.append_assoc, List.cons_append, List.append_assoc, value?,
        skipBlanks_cons (by decide)]
      simp only
      split
      next hclose =>
        rw [renderString_append, skipBlanks_cons (by decide)] at hclose
        exact absurd (List.cons.inj hclose).1 (by decide)
      next => simp [hread]

/-! ## Texts -/

/-- The readers need no more calls than a legible value has characters. -/
theorem Legible.readsBack {j : Json} (h : j.Legible) : j.ReadsBack := by
  induction h with
  | null => exact readsBack_null
  | bool b => exact readsBack_bool b
  | nat n => exact readsBack_nat n
  | string s => exact readsBack_string s
  | array _ ih => exact readsBack_array ih
  | object hkeys _ ih => exact readsBack_object hkeys ih

/-- A legible value is read back from the text it is written as. -/
theorem parse?_render {j : Json} (h : j.Legible) : parse? j.render = some j := by
  have hread := h.readsBack (2 * j.chars.length + 1) [] (by omega) follows_nil
  rw [List.append_nil] at hread
  rw [parse?, render, String.toList_ofList, hread]
  rfl

end TapeMachine.Json
