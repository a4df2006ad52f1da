import Mathlib.Data.List.DropRight
import Mathlib.Data.List.TakeDrop
import TypeRecovery.Json.Reader
import TypeRecovery.Json.Writer

/-!
# Texts that stand for a value

`Spells` is the grammar of the texts that stand for a value whose numbers are integers of 64 bits, with
blanks in front of values, keys and closing brackets. The reader finds the value of such a text
(`read_of_spells`), and both layouts write one (`spells_compact`, `spells_prettyAt`). So the text of a
value, in either layout, is read as that value (`read_textIn`).
-/

namespace TypeRecovery.Json

/-! ## Values that can be written -/

mutual

/-- Every number of a value is an integer of 64 bits, and every part of it denotes something. -/
def Plain : Json → Prop
  | .integer n => FitsInteger n
  | .decimal _ => False
  | .array items => PlainItems items
  | .object members => PlainMembers members
  | .unreadable => False
  | _ => True

/-- All values of a list are plain. -/
def PlainItems : List Json → Prop
  | [] => True
  | item :: items => Plain item ∧ PlainItems items

/-- The values of all members are plain. -/
def PlainMembers : List (String × Json) → Prop
  | [] => True
  | (_, value) :: members => Plain value ∧ PlainMembers members

end

/-- A list of values is plain if each of them is. -/
lemma plainItems_iff {items : List Json} : PlainItems items ↔ ∀ j ∈ items, j.Plain := by
  induction items with
  | nil => simp [PlainItems]
  | cons item items ih => rw [PlainItems, ih, List.forall_mem_cons]

/-- A list of members is plain if the value of each of them is. -/
lemma plainMembers_iff {members : List (String × Json)} :
    PlainMembers members ↔ ∀ m ∈ members, m.2.Plain := by
  induction members with
  | nil => simp [PlainMembers]
  | cons member members ih => rw [PlainMembers, ih, List.forall_mem_cons]

/-! ## The grammar -/

/-- Nothing but blanks. -/
def Blank (cs : List Char) : Prop :=
  ∀ c ∈ cs, Reader.isBlank c = true

mutual

/-- A text that stands for a value. -/
inductive Spells : Json → List Char → Prop
  | null : Spells .null ['n', 'u', 'l', 'l']
  | true : Spells (.bool true) ['t', 'r', 'u', 'e']
  | false : Spells (.bool false) ['f', 'a', 'l', 's', 'e']
  | integer {n} : FitsInteger n → Spells (.integer n) (Writer.integer n).toList
  | string {s} : Spells (.string s) (Writer.quoted s).toList
  | emptyArray : Spells (.array []) ['[', ']']
  | array {items cs} : SpellsItems items cs → Spells (.array items) ('[' :: cs)
  | emptyObject : Spells (.object []) ['\x7b', '\x7d']
  | object {members cs} : SpellsMembers members cs → Spells (.object members) ('\x7b' :: cs)
  | blank {b j cs} : Reader.isBlank b = true → Spells j cs → Spells j (b :: cs)

/-- A text that stands for the items of an array, with its closing bracket. -/
inductive SpellsItems : List Json → List Char → Prop
  | last {j cs ws} : Spells j cs → Blank ws → SpellsItems [j] (cs ++ (ws ++ [']']))
  | cons {j js cs ds} : Spells j cs → SpellsItems js ds → SpellsItems (j :: js) (cs ++ ',' :: ds)

/-- A text that stands for the members of an object, with its closing brace. -/
inductive SpellsMembers : List (String × Json) → List Char → Prop
  | last {key j vs cs ws} : Blank vs → Spells j cs → Blank ws →
    SpellsMembers [(key, j)] (vs ++ ((Writer.quoted key).toList ++ ':' :: (cs ++ (ws ++ ['\x7d']))))
  | cons {key j members vs cs ds} : Blank vs → Spells j cs → SpellsMembers members ds →
    SpellsMembers ((key, j) :: members)
      (vs ++ ((Writer.quoted key).toList ++ ':' :: (cs ++ ',' :: ds)))

end

/-! ## Reading strings -/

namespace Reader

/-- A hexadecimal digit is read as the number that it was written for. -/
lemma hexDigit?_hexDigit : ∀ n < 16, hexDigit? (Writer.hexDigit n) = some n := by
  decide

/-- Four hexadecimal digits are read as the number that they were written for. -/
lemma codeUnit?_hexDigits {n : Nat} (small : n < 256) :
    codeUnit? '0' '0' (Writer.hexDigit (n / 16)) (Writer.hexDigit (n % 16)) = some n := by
  have high := hexDigit?_hexDigit (n / 16) (by omega)
  have low := hexDigit?_hexDigit (n % 16) (by omega)
  have zero : hexDigit? '0' = some 0 := rfl
  have whole : 4096 * 0 + 256 * 0 + 16 * (n / 16) + n % 16 = n := by omega
  rw [codeUnit?, zero, high, low]
  exact congrArg some whole

/-- However a character is written, it is read as itself. -/
lemma stringRest_escaped (p : Scanned) (c : Char) (rest : List Char) :
    stringRest p (Writer.escaped c ++ rest) = stringRest (p.push c) rest := by
  unfold Writer.escaped
  split
  case h_8 quote backslash _ _ _ _ _ =>
    split
    · rename_i control
      have unit := codeUnit?_hexDigits (show c.toNat < 256 by omega)
      have low : c.toNat < 0xD800 ∨ 0xE000 ≤ c.toNat := by omega
      simp only [List.cons_append, List.nil_append, stringRest, unit, Scanned.pushUnit, low, if_true,
        Char.ofNat_toNat]
    · rename_i graphic
      rw [List.singleton_append, stringRest.eq_5 p c rest quote, if_neg graphic]
      · intro _ _ _ _ _ escape
        exact absurd escape backslash
      · intro _ _ escape
        exact absurd escape backslash
  all_goals rfl

/-- Characters that are pushed one by one end up in front of the earlier ones, the last one first.
-/
lemma foldl_push (cs before : List Char) :
    cs.foldl Scanned.push ⟨before, none, true⟩ = ⟨cs.reverse ++ before, none, true⟩ := by
  induction cs generalizing before with
  | nil => rfl
  | cons c cs ih =>
    rw [List.foldl_cons, List.reverse_cons, List.append_assoc]
    exact ih (c :: before)

/-- The rest of a string is read to its closing quote, character by character. -/
lemma stringRest_flatMap (p : Scanned) (cs rest : List Char) :
    stringRest p (cs.flatMap Writer.escaped ++ '"' :: rest) =
      some ((cs.foldl Scanned.push p).text?, rest) := by
  induction cs generalizing p with
  | nil => rfl
  | cons c cs ih =>
    rw [List.flatMap_cons, List.append_assoc, stringRest_escaped]
    exact ih (p.push c)

/-- A quoted string is its escaped characters between two quotes. -/
lemma toList_quoted (s : String) :
    (Writer.quoted s).toList = '"' :: (s.toList.flatMap Writer.escaped ++ ['"']) := by
  simp [Writer.quoted, String.toList_append]

/-- A quoted string is read to its closing quote. -/
lemma string_quoted (s : String) (rest : List Char) :
    string (s.toList.flatMap Writer.escaped ++ ['"'] ++ rest) = some (some s, rest) := by
  rw [List.append_assoc, List.singleton_append, string, stringRest_flatMap, Scanned.empty, foldl_push]
  simp [Scanned.text?]

/-! ## Reading numbers -/

/-- A text that does not go on with the number in front of it. -/
def Ends (rest : List Char) : Prop :=
  ∀ c ∈ rest.head?, c.isDigit = false ∧ c ≠ '.' ∧ c ≠ 'e' ∧ c ≠ 'E'

/-- The digits of a number are read up to where they end. -/
lemma digits_toDigits (n : Nat) {rest : List Char} (ends : Ends rest) :
    digits (Nat.toDigits 10 n ++ rest) = some (Nat.toDigits 10 n, rest) := by
  have all : ∀ c ∈ Nat.toDigits 10 n, c.isDigit = true := fun c among =>
    Nat.isDigit_of_mem_toDigits (by decide) (by decide) among
  have none : rest.takeWhile Char.isDigit = [] ∧ rest.dropWhile Char.isDigit = rest := by
    cases rest with
    | nil => exact ⟨rfl, rfl⟩
    | cons c rest =>
      have other : c.isDigit = false := (ends c rfl).1
      simp [other]
  rw [digits, List.span_eq_takeWhile_dropWhile, List.takeWhile_append_of_pos all,
    List.dropWhile_append_of_pos all, none.1, none.2, List.append_nil]
  cases row : Nat.toDigits 10 n with
  | nil => exact absurd row Nat.toDigits_ne_nil
  | cons c cs => rfl

/-- No zero stands in front of the digits of a positive number. -/
lemma head_toDigits_ne_zero {n : Nat} (pos : 0 < n) (rest : List Char) :
    (Nat.toDigits 10 n ++ rest).head? ≠ some '0' := by
  induction n using Nat.strongRecOn generalizing rest with
  | ind n ih =>
    by_cases small : n < 10
    · rw [Nat.toDigits_of_lt_base small]
      intro zero
      have := Nat.digitChar_eq_zero.1 (Option.some.inj zero)
      omega
    · rw [Nat.toDigits_of_base_le (by decide) (by omega), List.append_assoc]
      exact ih (n / 10) (by omega) (by omega) _

/-- The digits of a number are an integral part: none of them is a zero too many in front. -/
lemma integralPart_toDigits (n : Nat) {rest : List Char} (ends : Ends rest) :
    integralPart (Nat.toDigits 10 n ++ rest) = some (Nat.toDigits 10 n, rest) := by
  rcases Nat.eq_zero_or_pos n with rfl | pos
  · rfl
  · rw [← digits_toDigits n ends]
    unfold integralPart
    split
    · rename_i zero
      exact absurd (congrArg List.head? zero) (head_toDigits_ne_zero pos rest)
    · rfl

/-- The digits of a number have it as their value. -/
lemma decimalValue_toDigits (n : Nat) : decimalValue (Nat.toDigits 10 n) = n :=
  Nat.ofDigitChars_eq_foldl.symm.trans (Nat.ofDigitChars_ten_toDigits)

/-- A number without a fraction is an integer; only a negative zero would be none. -/
lemma numberValue_toDigits {negative : Bool} {k : Nat} {n : Int} {literal : String}
    (same : (if negative then -(k : Int) else k) = n) (fits : FitsInteger n)
    (signed : negative = true → k ≠ 0) :
    numberValue negative (Nat.toDigits 10 k) [] none literal = .integer n := by
  have proper : ¬ (negative = true ∧ k = 0) := fun zero => signed zero.1 zero.2
  rw [numberValue, decimalValue_toDigits, same, if_pos ⟨rfl, rfl, fits, proper⟩]

/-- The digits of a number are read as a number without a fraction and without an exponent. -/
lemma unsignedNumber_toDigits (negative : Bool) (n : Nat) {rest : List Char} (ends : Ends rest) :
    ∃ literal, unsignedNumber negative (Nat.toDigits 10 n ++ rest) =
      some (numberValue negative (Nat.toDigits 10 n) [] none literal, rest) := by
  have fraction : fractionPart rest = some ([], rest) := by
    unfold fractionPart
    split
    · exact absurd rfl (ends _ rfl).2.1
    · rfl
  have exponent : exponentPart rest = some (none, rest) := by
    cases rest with
    | nil => rfl
    | cons c rest =>
      obtain ⟨-, -, lower, upper⟩ := ends c rfl
      simp [exponentPart, lower, upper]
  rw [unsignedNumber, integralPart_toDigits n ends]
  simp only [Option.bind_eq_bind, Option.bind_some, fraction, exponent]
  exact ⟨_, rfl⟩

/-- An integer of 64 bits is read to its last digit. -/
lemma number_integer {n : Int} (fits : FitsInteger n) {rest : List Char} (ends : Ends rest) :
    number ((Writer.integer n).toList ++ rest) = some (.integer n, rest) := by
  rw [Writer.integer]
  split
  case isTrue negative =>
    obtain ⟨literal, found⟩ := unsignedNumber_toDigits true n.natAbs ends
    have sign : (if true then -(n.natAbs : Int) else n.natAbs) = n := by
      rw [if_pos rfl]
      omega
    have nonzero : n.natAbs ≠ 0 := by omega
    rw [String.toList_append, Nat.repr_eq_ofList_toDigits, String.toList_ofList,
      String.toList_ofList, List.append_assoc]
    refine Eq.trans found ?_
    rw [numberValue_toDigits sign fits fun _ => nonzero]
  case isFalse nonnegative =>
    obtain ⟨literal, found⟩ := unsignedNumber_toDigits false n.natAbs ends
    have sign : (if false then -(n.natAbs : Int) else n.natAbs) = n := by
      rw [if_neg Bool.false_ne_true]
      omega
    have unsigned : ∀ cs, Nat.toDigits 10 n.natAbs ++ rest ≠ '-' :: cs := by
      intro cs minus
      cases row : Nat.toDigits 10 n.natAbs with
      | nil => exact Nat.toDigits_ne_nil row
      | cons c ds =>
        have digit : c.isDigit = true :=
          Nat.isDigit_of_mem_toDigits (by decide) (by decide) (row ▸ List.mem_cons_self)
        rw [row, List.cons_append] at minus
        rw [(List.cons.inj minus).1] at digit
        exact absurd digit (by decide)
    rw [Nat.repr_eq_ofList_toDigits, String.toList_ofList, number.eq_2 _ unsigned, found,
      numberValue_toDigits sign fits Bool.noConfusion]

/-! ## Reading values -/

/-- Blanks in front are skipped. -/
lemma skipBlanks_append {ws : List Char} (blank : Blank ws) (rest : List Char) :
    skipBlanks (ws ++ rest) = skipBlanks rest :=
  List.dropWhile_append_of_pos blank

/-- Behind skipped blanks there is none to skip. -/
@[simp] lemma skipBlanks_skipBlanks (cs : List Char) : skipBlanks (skipBlanks cs) = skipBlanks cs :=
  List.dropWhile_idempotent _ _

/-- A value may have blanks in front. -/
lemma value_skipBlanks (fuel : Nat) (cs : List Char) : value fuel (skipBlanks cs) = value fuel cs := by
  cases fuel with
  | zero => rfl
  | succ fuel => rw [value, value, skipBlanks_skipBlanks]

/-- The items of an array may have blanks in front. -/
lemma items_skipBlanks (fuel : Nat) (cs : List Char) : items fuel (skipBlanks cs) = items fuel cs := by
  cases fuel with
  | zero => rfl
  | succ fuel => rw [items, items, value_skipBlanks]

/-- The members of an object may have blanks in front. -/
lemma members_skipBlanks (fuel : Nat) (cs : List Char) :
    members fuel (skipBlanks cs) = members fuel cs := by
  cases fuel with
  | zero => rfl
  | succ fuel => rw [members, members, skipBlanks_skipBlanks]

/-- A number ends where the text does. -/
lemma ends_nil : Ends [] := by
  intro c first
  cases first

/-- A number ends at a character that cannot go on with it. -/
lemma ends_cons {c : Char} (other : c.isDigit = false ∧ c ≠ '.' ∧ c ≠ 'e' ∧ c ≠ 'E')
    (rest : List Char) : Ends (c :: rest) := by
  intro d first
  cases first
  exact other

/-- A number ends at a blank. -/
lemma ends_of_isBlank {c : Char} (blank : isBlank c = true) (rest : List Char) : Ends (c :: rest) := by
  refine ends_cons ?_ rest
  simp only [isBlank, Bool.or_eq_true, decide_eq_true_eq] at blank
  rcases blank with ((rfl | rfl) | rfl) | rfl <;> decide

/-- A number ends at blanks, provided that it ends without them. -/
lemma ends_append {ws rest : List Char} (blank : Blank ws) (ends : Ends rest) : Ends (ws ++ rest) := by
  cases ws with
  | nil => exact ends
  | cons c ws => exact ends_of_isBlank (blank c List.mem_cons_self) _

/-- The characters that an integer may start with. -/
def StartsNumber (c : Char) : Prop :=
  c = '-' ∨ c.isDigit = true

/-- An integer starts with a sign or a digit. -/
lemma integer_starts (n : Int) : ∃ c cs, (Writer.integer n).toList = c :: cs ∧ StartsNumber c := by
  rw [Writer.integer]
  split
  case isTrue => exact ⟨'-', (Nat.repr n.natAbs).toList, by simp, .inl rfl⟩
  case isFalse =>
    rw [Nat.repr_eq_ofList_toDigits, String.toList_ofList]
    cases row : Nat.toDigits 10 n.natAbs with
    | nil => exact absurd row Nat.toDigits_ne_nil
    | cons c cs =>
      refine ⟨c, cs, rfl, .inr ?_⟩
      exact Nat.isDigit_of_mem_toDigits (by decide) (by decide) (row ▸ List.mem_cons_self)

/-- No other character is the start of a number. -/
lemma StartsNumber.ne {c d : Char} (starts : StartsNumber c) (other : ¬ StartsNumber d) : c ≠ d := by
  rintro rfl
  exact other starts

instance (c : Char) : Decidable (StartsNumber c) :=
  inferInstanceAs (Decidable (c = '-' ∨ c.isDigit = true))

/-- A text that does not start with a blank has none to skip. -/
lemma skipBlanks_cons {c : Char} (other : isBlank c = false) (cs : List Char) :
    skipBlanks (c :: cs) = c :: cs :=
  List.dropWhile_cons_of_neg (by simp [other])

/-- The start of a number is no blank. -/
lemma StartsNumber.isBlank_eq_false {c : Char} (starts : StartsNumber c) : isBlank c = false := by
  have space := starts.ne (d := ' ') (by decide)
  have tab := starts.ne (d := '\t') (by decide)
  have line := starts.ne (d := '\n') (by decide)
  have feed := starts.ne (d := '\r') (by decide)
  simp [isBlank, space, tab, line, feed]

/-- An integer of 64 bits is read as a value, up to where it ends. -/
lemma value_integer (fuel : Nat) {n : Int} (fits : FitsInteger n) {rest : List Char}
    (ends : Ends rest) :
    value (fuel + 1) ((Writer.integer n).toList ++ rest) = some (.integer n, rest) := by
  rw [← number_integer fits ends]
  obtain ⟨c, cs, eq, starts⟩ := integer_starts n
  rw [eq, List.cons_append, value, skipBlanks_cons starts.isBlank_eq_false]
  split
  case h_7 => rfl
  all_goals
    rename_i first
    exact absurd (List.cons.inj first).1 (starts.ne (by decide))

/-- An array that does not close at once is read with its items. -/
lemma value_array {fuel : Nat} {cs rest : List Char} {js : List Json}
    (opens : ∀ ds, skipBlanks cs ≠ ']' :: ds) (found : items fuel cs = some (js, rest)) :
    value (fuel + 1) ('[' :: cs) = some (.array js, rest) := by
  rw [value, skipBlanks_cons (by decide)]
  simp only [items_skipBlanks, found]
  rfl

/-- An object that does not close at once is read with its members. -/
lemma value_object {fuel : Nat} {cs rest : List Char} {ms : List (String × Json)}
    (opens : ∀ ds, skipBlanks cs ≠ '\x7d' :: ds) (found : members fuel cs = some (some ms, rest)) :
    value (fuel + 1) ('\x7b' :: cs) = some (.object ms, rest) := by
  rw [value, skipBlanks_cons (by decide)]
  simp only [members_skipBlanks, found]
  rfl

/-- The last item of an array is followed by the closing bracket. -/
lemma items_last {fuel : Nat} {cs rest after : List Char} {j : Json}
    (found : value fuel cs = some (j, rest)) (closes : skipBlanks rest = ']' :: after) :
    items (fuel + 1) cs = some ([j], after) := by
  rw [items, found]
  simp only [Option.bind_eq_bind, Option.bind_some, closes]
  rfl

/-- An item that is followed by a comma is read together with the later ones. -/
lemma items_cons {fuel : Nat} {cs rest after last : List Char} {j : Json} {js : List Json}
    (found : value fuel cs = some (j, rest)) (goesOn : skipBlanks rest = ',' :: after)
    (more : items fuel after = some (js, last)) :
    items (fuel + 1) cs = some (j :: js, last) := by
  rw [items, found]
  simp only [Option.bind_eq_bind, Option.bind_some, goesOn, more]
  rfl

/-- There is no blank to skip in front of a colon. -/
lemma skipBlanks_colon (cs : List Char) : skipBlanks (':' :: cs) = ':' :: cs :=
  skipBlanks_cons (by decide) cs

/-- The last member of an object is followed by the closing brace. -/
lemma members_last {fuel : Nat} {key : String} {vs cs rest after : List Char} {j : Json}
    (before : Blank vs) (found : value fuel cs = some (j, rest))
    (closes : skipBlanks rest = '\x7d' :: after) :
    members (fuel + 1) (vs ++ ((Writer.quoted key).toList ++ ':' :: cs)) =
      some (some [(key, j)], after) := by
  rw [members, skipBlanks_append before, toList_quoted, List.cons_append, skipBlanks_cons (by decide)]
  simp only [string_quoted, Option.bind_eq_bind, Option.bind_some, skipBlanks_colon, found, closes]
  rfl

/-- A member that is followed by a comma is read together with the later ones. -/
lemma members_cons {fuel : Nat} {key : String} {vs cs rest after last : List Char} {j : Json}
    {ms : List (String × Json)} (before : Blank vs) (found : value fuel cs = some (j, rest))
    (goesOn : skipBlanks rest = ',' :: after) (more : members fuel after = some (some ms, last)) :
    members (fuel + 1) (vs ++ ((Writer.quoted key).toList ++ ':' :: cs)) =
      some (some ((key, j) :: ms), last) := by
  rw [members, skipBlanks_append before, toList_quoted, List.cons_append, skipBlanks_cons (by decide)]
  simp only [string_quoted, Option.bind_eq_bind, Option.bind_some, skipBlanks_colon, found, goesOn,
    more]
  rfl

/-- A quoted string is read as a value. -/
lemma value_quoted (fuel : Nat) (s : String) (rest : List Char) :
    value (fuel + 1) ((Writer.quoted s).toList ++ rest) = some (.string s, rest) := by
  rw [toList_quoted, List.cons_append, value, skipBlanks_cons (by decide)]
  simp only [string_quoted]
  rfl

/-- A text that starts with one character does not start with another one behind its blanks. -/
lemma head_append_ne {c d : Char} (ne : c ≠ d) (other : isBlank c = false) (cs ds : List Char) :
    skipBlanks (c :: cs) ≠ d :: ds := by
  rw [skipBlanks_cons other]
  intro eq
  exact ne (List.cons.inj eq).1

/-- No text of a value starts with a closing bracket. -/
theorem skipBlanks_ne_of_spells {j : Json} {cs : List Char} (rest ds : List Char) :
    Spells j cs → skipBlanks (cs ++ rest) ≠ ']' :: ds
  | .null | .true | .false | .emptyArray | .array _ | .emptyObject | .object _ =>
    head_append_ne (by decide) (by decide) _ _
  | .integer (n := n) _ => by
    obtain ⟨c, cs, eq, starts⟩ := integer_starts n
    rw [eq]
    exact head_append_ne (starts.ne (by decide)) starts.isBlank_eq_false _ _
  | .string => by
    rw [toList_quoted]
    exact head_append_ne (by decide) (by decide) _ _
  | .blank blank spells => by
    rw [List.cons_append, skipBlanks, List.dropWhile_cons_of_pos blank]
    exact skipBlanks_ne_of_spells rest ds spells

/-- No text of members starts with the closing brace. -/
lemma skipBlanks_members_ne_of_spells {ms : List (String × Json)} {cs : List Char}
    (spells : SpellsMembers ms cs) (rest ds : List Char) : skipBlanks (cs ++ rest) ≠ '\x7d' :: ds := by
  cases spells with
  | last before _ _ | cons before _ _ =>
    rw [List.append_assoc, skipBlanks_append before, toList_quoted]
    exact head_append_ne (by decide) (by decide) _ _

/-- No text of items starts with the closing bracket. -/
lemma skipBlanks_items_ne_of_spells {js : List Json} {cs : List Char} (spells : SpellsItems js cs)
    (rest ds : List Char) : skipBlanks (cs ++ rest) ≠ ']' :: ds := by
  cases spells with
  | last spells _ | cons spells _ =>
    rw [List.append_assoc]
    exact skipBlanks_ne_of_spells _ _ spells

mutual

/-- A value is read to the end of a text that stands for it. -/
theorem value_of_spells : ∀ {j : Json} {cs : List Char}, Spells j cs →
    ∀ {fuel : Nat} {rest : List Char}, cs.length < fuel → Ends rest →
      value fuel (cs ++ rest) = some (j, rest) := by
  intro j cs spells fuel rest enough ends
  obtain _ | fuel := fuel
  · exact absurd enough (Nat.not_lt_zero _)
  -- every level takes a character at least, so the length of the text is fuel enough
  cases spells with
  | null | true | false | emptyArray | emptyObject => rfl
  | integer fits => exact value_integer fuel fits ends
  | string => exact value_quoted fuel _ rest
  | array spells =>
    have within := Nat.lt_of_succ_lt_succ enough
    exact value_array (skipBlanks_items_ne_of_spells spells rest) (items_of_spells spells within)
  | object spells =>
    have within := Nat.lt_of_succ_lt_succ enough
    exact value_object (skipBlanks_members_ne_of_spells spells rest)
      (members_of_spells spells within)
  | blank blank spells =>
    rw [List.cons_append, ← value_skipBlanks, skipBlanks, List.dropWhile_cons_of_pos blank]
    exact (value_skipBlanks _ _).trans (value_of_spells spells (Nat.lt_of_succ_lt enough) ends)
termination_by _ cs => cs.length

/-- The items of an array are read to its closing bracket. -/
theorem items_of_spells : ∀ {js : List Json} {cs : List Char}, SpellsItems js cs →
    ∀ {fuel : Nat} {rest : List Char}, cs.length < fuel →
      items fuel (cs ++ rest) = some (js, rest) := by
  intro js cs spells fuel rest enough
  obtain _ | fuel := fuel
  · exact absurd enough (Nat.not_lt_zero _)
  cases spells with
  | last spells blank =>
    simp only [List.length_append, List.length_singleton] at enough
    rw [List.append_assoc, List.append_assoc, List.singleton_append]
    exact items_last (value_of_spells spells (by omega) (ends_append blank (ends_cons (by decide) _)))
      (skipBlanks_append blank _)
  | cons spells others =>
    simp only [List.length_append, List.length_cons] at enough
    rw [List.append_assoc, List.cons_append]
    exact items_cons (value_of_spells spells (by omega) (ends_cons (by decide) _))
      (skipBlanks_cons (by decide) _) (items_of_spells others (by omega))
termination_by _ cs => cs.length

/-- The members of an object are read to its closing brace. -/
theorem members_of_spells : ∀ {ms : List (String × Json)} {cs : List Char}, SpellsMembers ms cs →
    ∀ {fuel : Nat} {rest : List Char}, cs.length < fuel →
      members fuel (cs ++ rest) = some (some ms, rest) := by
  intro ms cs spells fuel rest enough
  obtain _ | fuel := fuel
  · exact absurd enough (Nat.not_lt_zero _)
  cases spells with
  | last before spells blank =>
    simp only [List.length_append, List.length_cons, List.length_nil] at enough
    simp only [List.append_assoc, List.cons_append, List.nil_append]
    exact members_last before
      (value_of_spells spells (by omega) (ends_append blank (ends_cons (by decide) _)))
      (skipBlanks_append blank _)
  | cons before spells others =>
    simp only [List.length_append, List.length_cons] at enough
    simp only [List.append_assoc, List.cons_append]
    exact members_cons before (value_of_spells spells (by omega) (ends_cons (by decide) _))
      (skipBlanks_cons (by decide) _) (members_of_spells others (by omega))
termination_by _ cs => cs.length

end

end Reader

/-- A text that stands for a value is read as it. -/
theorem read_of_spells {text : String} {j : Json} (spells : Spells j text.toList) :
    read text = some j := by
  have found := Reader.value_of_spells spells (Nat.lt_succ_self _) Reader.ends_nil
  rw [List.append_nil] at found
  rw [read, found]
  rfl

/-! ## Writing -/

/-- A text may have blanks in front and stands for the same value. -/
lemma spells_append {ws cs : List Char} {j : Json} (blank : Blank ws) (spells : Spells j cs) :
    Spells j (ws ++ cs) := by
  induction ws with
  | nil => exact spells
  | cons b ws ih =>
    exact .blank (blank b List.mem_cons_self) (ih fun c among => blank c (List.mem_cons_of_mem b among))

/-- A text that stands for one member of an object. -/
def SpellsMember (member : String × Json) (text : String) : Prop :=
  ∃ vs cs, Blank vs ∧ Spells member.2 cs ∧
    text.toList = vs ++ ((Writer.quoted member.1).toList ++ ':' :: cs)

/-- Texts of items that stand between commas stand for all of them. -/
lemma spellsItems_intercalate {ws : List Char} (blank : Blank ws) {j : Json} {js : List Json}
    {texts : List String} (each : List.Forall₂ (fun j text => Spells j text.toList) (j :: js) texts) :
    SpellsItems (j :: js) ((",".intercalate texts).toList ++ (ws ++ [']'])) := by
  induction js generalizing j texts with
  | nil =>
    obtain _ | ⟨first, _ | _⟩ := each
    rw [String.intercalate_singleton]
    exact .last first blank
  | cons next js ih =>
    obtain _ | ⟨first, others⟩ := each
    have rest := ih others
    obtain _ | ⟨_, _⟩ := others
    rw [String.intercalate_cons_cons, String.toList_append, String.toList_append, List.append_assoc,
      List.append_assoc]
    exact .cons first rest

/-- Texts of members that stand between commas stand for all of them. -/
lemma spellsMembers_intercalate {ws : List Char} (blank : Blank ws) {m : String × Json}
    {ms : List (String × Json)} {texts : List String}
    (each : List.Forall₂ SpellsMember (m :: ms) texts) :
    SpellsMembers (m :: ms) ((",".intercalate texts).toList ++ (ws ++ ['\x7d'])) := by
  induction ms generalizing m texts with
  | nil =>
    obtain _ | ⟨⟨vs, cs, before, spells, eq⟩, _ | _⟩ := each
    rw [String.intercalate_singleton, eq]
    simp only [List.append_assoc, List.cons_append]
    exact .last before spells blank
  | cons next ms ih =>
    obtain _ | ⟨⟨vs, cs, before, spells, eq⟩, others⟩ := each
    have rest := ih others
    obtain _ | ⟨_, _⟩ := others
    rw [String.intercalate_cons_cons, String.toList_append, String.toList_append, eq]
    simp only [List.append_assoc, List.cons_append]
    exact .cons before spells rest

/-- Texts of items between brackets stand for the array. -/
lemma spells_array {items : List Json} {texts : List String} {ws : List Char} (blank : Blank ws)
    (each : List.Forall₂ (fun j text => Spells j text.toList) items texts) (filled : items ≠ []) :
    Spells (.array items) ('[' :: ((",".intercalate texts).toList ++ (ws ++ [']']))) := by
  cases items with
  | nil => exact absurd rfl filled
  | cons j js => exact .array (spellsItems_intercalate blank each)

/-- Texts of members between braces stand for the object. -/
lemma spells_object {members : List (String × Json)} {texts : List String} {ws : List Char}
    (blank : Blank ws) (each : List.Forall₂ SpellsMember members texts) (filled : members ≠ []) :
    Spells (.object members) ('\x7b' :: ((",".intercalate texts).toList ++ (ws ++ ['\x7d']))) := by
  cases members with
  | nil => exact absurd rfl filled
  | cons m ms => exact .object (spellsMembers_intercalate blank each)

/-- No characters are nothing but blanks. -/
lemma blank_nil : Blank [] :=
  List.forall_mem_nil _

/-- A new line and its indentation are nothing but blanks. -/
lemma blank_newline (depth : Nat) : Blank (Writer.newline depth).toList := by
  intro c among
  rw [Writer.newline, String.toList_append, List.mem_append] at among
  rcases among with first | indent
  · rw [List.mem_singleton.1 first]
    decide
  · rw [String.toList_ofList] at indent
    rw [List.eq_of_mem_replicate indent]
    decide

mutual

/-- The compact text of a plain value stands for it. -/
theorem spells_compact : ∀ j : Json, j.Plain → Spells j j.compact.toList
  | .null, _ => .null
  | .bool true, _ => .true
  | .bool false, _ => .false
  | .integer _, fits => .integer fits
  | .decimal _, plain => plain.elim
  | .string _, _ => .string
  | .array items, plain => by
    have each := spells_compactItems items plain
    cases items with
    | nil => exact .emptyArray
    | cons j js =>
      rw [compact, String.toList_append, String.toList_append, List.append_assoc]
      exact spells_array blank_nil each (List.cons_ne_nil j js)
  | .object members, plain => by
    have each := spells_compactMembers members plain
    cases members with
    | nil => exact .emptyObject
    | cons m ms =>
      rw [compact, String.toList_append, String.toList_append, List.append_assoc]
      exact spells_object blank_nil each (List.cons_ne_nil m ms)
  | .unreadable, plain => plain.elim

/-- The compact texts of plain items stand for them. -/
theorem spells_compactItems : ∀ items : List Json, PlainItems items →
    List.Forall₂ (fun j text => Spells j text.toList) items (compactItems items)
  | [], _ => .nil
  | item :: items, plain =>
    .cons (spells_compact item plain.1) (spells_compactItems items plain.2)

/-- The compact texts of plain members stand for them. -/
theorem spells_compactMembers : ∀ members : List (String × Json), PlainMembers members →
    List.Forall₂ SpellsMember members (compactMembers members)
  | [], _ => .nil
  | (key, value) :: members, plain => by
    refine .cons ⟨[], _, blank_nil, spells_compact value plain.1, ?_⟩
      (spells_compactMembers members plain.2)
    simp [String.toList_append]

end

mutual

/-- The indented text of a plain value stands for it, however deep it stands. -/
theorem spells_prettyAt (depth : Nat) : ∀ j : Json, j.Plain → Spells j (prettyAt depth j).toList
  | .null, _ => by rw [prettyAt]; exact .null
  | .bool true, _ => by rw [prettyAt]; exact .true
  | .bool false, _ => by rw [prettyAt]; exact .false
  | .integer _, fits => .integer fits
  | .decimal _, plain => plain.elim
  | .string _, _ => .string
  | .array items, plain => by
    have each := spells_prettyItems (depth + 1) items plain
    cases items with
    | nil => rw [prettyAt]; exact .emptyArray
    | cons j js =>
      simp only [prettyAt, String.toList_append, List.append_assoc]
      exact spells_array (blank_newline depth) each (List.cons_ne_nil j js)
  | .object members, plain => by
    have each := spells_prettyMembers (depth + 1) members plain
    cases members with
    | nil => rw [prettyAt]; exact .emptyObject
    | cons m ms =>
      simp only [prettyAt, String.toList_append, List.append_assoc]
      exact spells_object (blank_newline depth) each (List.cons_ne_nil m ms)
  | .unreadable, plain => plain.elim

/-- The indented texts of plain items stand for them. -/
theorem spells_prettyItems (depth : Nat) : ∀ items : List Json, PlainItems items →
    List.Forall₂ (fun j text => Spells j text.toList) items (prettyItems depth items)
  | [], _ => .nil
  | item :: items, plain => by
    refine .cons ?_ (spells_prettyItems depth items plain.2)
    rw [String.toList_append]
    exact spells_append (blank_newline depth) (spells_prettyAt depth item plain.1)

/-- The indented texts of plain members stand for them. -/
theorem spells_prettyMembers (depth : Nat) : ∀ members : List (String × Json), PlainMembers members →
    List.Forall₂ SpellsMember members (prettyMembers depth members)
  | [], _ => .nil
  | (key, value) :: members, plain => by
    have spells : Spells value (' ' :: (prettyAt depth value).toList) :=
      .blank (by decide) (spells_prettyAt depth value plain.1)
    refine .cons ⟨_, _, blank_newline depth, spells, ?_⟩ (spells_prettyMembers depth members plain.2)
    simp [String.toList_append]

end

/-- The two layouts of a text. -/
inductive Layout where
  | compact
  | indented

/-- The text of a value in one of the layouts. -/
def textIn (j : Json) : Layout → String
  | .compact => j.compact
  | .indented => j.pretty

/-- A plain value is read back from its text. -/
theorem read_textIn {j : Json} (plain : j.Plain) (layout : Layout) : read (j.textIn layout) = some j := by
  cases layout with
  | compact => exact read_of_spells (spells_compact j plain)
  | indented => exact read_of_spells (spells_prettyAt 0 j plain)

end TypeRecovery.Json
