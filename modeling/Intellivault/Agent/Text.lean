import Mathlib.Tactic.Ring
import Intellivault.Graph.Model
import Intellivault.Agent.Printable

/-!
# Texts

`str(uuid)`, `UUID(text)` and `repr(text)`, which the nodes use to print ids and notes and
to read the references a model returns.
-/

namespace Intellivault.Agent

open Lib

/-! ## UUIDs -/

def hexDigits (v n : Nat) : List Char :=
  (List.range n).map fun i => Json.hexDigit (v / 16 ^ (n - 1 - i))

/-- `str(uuid)`: 8-4-4-4-12 lower-case hexadecimal digits. -/
def uuidStr (id : UUID) : String :=
  let h := hexDigits id.toNat 32
  String.ofList (h.take 8 ++ '-' :: (h.drop 8).take 4 ++ '-' :: (h.drop 12).take 4 ++
    '-' :: (h.drop 16).take 4 ++ '-' :: h.drop 20)

/-- `text.replace(pat, "")`, with the length of the text as fuel. -/
def removeAll (pat : List Char) : Nat → List Char → List Char
  | 0, cs => cs
  | _ + 1, [] => []
  | n + 1, c :: cs =>
      if pat.isPrefixOf (c :: cs) then removeAll pat n ((c :: cs).drop pat.length)
      else c :: removeAll pat n cs

def dropBoth (p : Char → Bool) (cs : List Char) : List Char :=
  ((cs.dropWhile p).reverse.dropWhile p).reverse

/-- `str.isspace`, of one character. -/
def isSpace (c : Char) : Bool :=
  let n := c.toNat
  (9 ≤ n ∧ n ≤ 13) ∨ (28 ≤ n ∧ n ≤ 32) ∨ n = 133 ∨ n = 160 ∨ n = 5760 ∨
    (8192 ≤ n ∧ n ≤ 8202) ∨ n = 8232 ∨ n = 8233 ∨ n = 8239 ∨ n = 8287 ∨ n = 12288

/-- `text.strip()` -/
def strip (text : String) : String := String.ofList (dropBoth isSpace text.toList)

/-- The code points of the digit zero in the scripts that have decimal digits. -/
def decimalZeros : List Nat :=
  [0x30, 0x660, 0x6F0, 0x7C0, 0x966, 0x9E6, 0xA66, 0xAE6, 0xB66, 0xBE6, 0xC66, 0xCE6, 0xD66,
    0xDE6, 0xE50, 0xED0, 0xF20, 0x1040, 0x1090, 0x17E0, 0x1810, 0x1946, 0x19D0, 0x1A80, 0x1A90,
    0x1B50, 0x1BB0, 0x1C40, 0x1C50, 0xA620, 0xA8D0, 0xA900, 0xA9D0, 0xA9F0, 0xAA50, 0xABF0,
    0xFF10, 0x104A0, 0x10D30, 0x11066, 0x110F0, 0x11136, 0x111D0, 0x112F0, 0x11450, 0x114D0,
    0x11650, 0x116C0, 0x11730, 0x118E0, 0x11950, 0x11C50, 0x11D50, 0x11DA0, 0x11F50, 0x16A60,
    0x16AC0, 0x16B50, 0x1D7CE, 0x1D7D8, 0x1D7E2, 0x1D7EC, 0x1D7F6, 0x1E140, 0x1E2F0, 0x1E4F0,
    0x1E950, 0x1FBF0]

/-- The value of a digit in base 16, as `int(text, 16)` reads it. -/
def hexValue (c : Char) : Option Nat :=
  let n := c.toNat
  if 97 ≤ n ∧ n ≤ 102 then some (n - 87)
  else if 65 ≤ n ∧ n ≤ 70 then some (n - 55)
  else (decimalZeros.find? fun z => z ≤ n ∧ n ≤ z + 9).map fun z => n - z

/-- Digits of base 16 with single underscores between them; `bar` says that the last
character read was an underscore (or that nothing has been read). -/
def readHex : (acc : Nat) → (bar : Bool) → List Char → Option Nat
  | acc, bar, [] => if bar then none else some acc
  | acc, bar, c :: cs =>
      if c = '_' then if bar then none else readHex acc true cs
      else
        match hexValue c with
        | some d => readHex (acc * 16 + d) false cs
        | none => none

/-- The blanks that `int` skips: not the separators U+001C to U+001F. -/
def isIntSpace (c : Char) : Bool := isSpace c ∧ ¬(28 ≤ c.toNat ∧ c.toNat ≤ 31)

/-- `int(text, 16)`, of a text without a minus sign. -/
def intBase16 (cs : List Char) : Option Nat :=
  let cs := dropBoth isIntSpace cs
  let cs := match cs with
    | '+' :: rest => rest
    | _ => cs
  match cs with
  | '0' :: 'x' :: rest | '0' :: 'X' :: rest =>
      match rest with
      | '_' :: rest => readHex 0 true rest
      | rest => readHex 0 true rest
  | _ => readHex 0 true cs

/-- `UUID(text)`; `none` is the `ValueError`. -/
def parseUuid (text : String) : Option UUID :=
  let cs := text.toList
  let cs := removeAll "urn:".toList cs.length cs
  let cs := removeAll "uuid:".toList cs.length cs
  let cs := (dropBoth (fun c => c.toNat = 123 ∨ c.toNat = 125) cs).filter (· ≠ '-')
  if cs.length = 32 then (intBase16 cs).map (BitVec.ofNat 128) else none

/-! ## An id is read back -/

/-- A digit is read as its value, and is none of the characters a UUID may be set in. -/
theorem hexDigit_reads (n : Nat) :
    hexValue (Json.hexDigit n) = some (n % 16) ∧ isIntSpace (Json.hexDigit n) = false ∧
      (Json.hexDigit n).toNat ≠ 123 ∧ (Json.hexDigit n).toNat ≠ 125 ∧
      ∀ c ∈ ['_', '-', '+', 'u', 'x', 'X'], Json.hexDigit n ≠ c := by
  have value : ∀ m : Fin 16, hexValue (Json.hexDigit m) = some m.val := by decide
  have plain : ∀ m : Fin 16, isIntSpace (Json.hexDigit m) = false ∧
      (Json.hexDigit m).toNat ≠ 123 ∧ (Json.hexDigit m).toNat ≠ 125 := by decide
  have others : ∀ m : Fin 16, Json.hexDigit m ∉ ['_', '-', '+', 'u', 'x', 'X'] := by decide
  have same : Json.hexDigit (n % 16) = Json.hexDigit n := by
    simp only [Json.hexDigit, Nat.mod_mod]
  let m : Fin 16 := ⟨n % 16, Nat.mod_lt n (by decide)⟩
  rw [← same]
  exact ⟨value m, (plain m).1, (plain m).2.1, (plain m).2.2, fun c mem equal => others m (equal ▸ mem)⟩

theorem mem_hexDigits {v n : Nat} {c : Char} (mem : c ∈ hexDigits v n) :
    ∃ m, c = Json.hexDigit m := by
  obtain ⟨i, -, rfl⟩ := List.mem_map.mp mem
  exact ⟨_, rfl⟩

theorem length_hexDigits (v n : Nat) : (hexDigits v n).length = n := by
  rw [hexDigits, List.length_map, List.length_range]

theorem hexDigits_succ (v n : Nat) :
    hexDigits v (n + 1) = Json.hexDigit (v / 16 ^ n) :: hexDigits v n := by
  rw [hexDigits, List.range_succ_eq_map, List.map_cons, List.map_map]
  refine congrArg _ (List.map_congr_left fun i _ => ?_)
  have shifted : n + 1 - 1 - (i + 1) = n - 1 - i := by omega
  simp only [Function.comp, shifted]

theorem removeAll_of_absent {c : Char} {pat cs : List Char} (n : Nat) (absent : c ∉ cs) :
    removeAll (c :: pat) n cs = cs := by
  induction n generalizing cs with
  | zero => rfl
  | succ n ih =>
      cases cs with
      | nil => rfl
      | cons d cs =>
          rw [List.mem_cons, not_or] at absent
          have other : (c :: pat).isPrefixOf (d :: cs) = false := by
            simp [List.isPrefixOf, absent.1]
          rw [removeAll, other, ih absent.2]
          rfl

/-- What is dropped from both ends satisfies `p`. -/
theorem dropBoth_spec (p : Char → Bool) (cs : List Char) :
    ∃ before after, cs = before ++ dropBoth p cs ++ after ∧ (∀ c ∈ before, p c = true) ∧
      ∀ c ∈ after, p c = true := by
  refine ⟨cs.takeWhile p, ((cs.dropWhile p).reverse.takeWhile p).reverse, ?_,
    List.all_eq_true.mp List.all_takeWhile,
    fun c mem => List.all_eq_true.mp List.all_takeWhile c (List.mem_reverse.mp mem)⟩
  have trailing := congrArg List.reverse
    (List.takeWhile_append_dropWhile (p := p) (l := (cs.dropWhile p).reverse))
  rw [List.reverse_append, List.reverse_reverse] at trailing
  rw [dropBoth, List.append_assoc, trailing, List.takeWhile_append_dropWhile]

theorem mem_of_mem_dropBoth {p : Char → Bool} {cs : List Char} {c : Char}
    (mem : c ∈ dropBoth p cs) : c ∈ cs :=
  (List.dropWhile_sublist p).subset
    (List.mem_reverse.mp ((List.dropWhile_sublist p).subset (List.mem_reverse.mp mem)))

theorem dropWhile_append_left {p : Char → Bool} {before : List Char} (cs : List Char)
    (leading : ∀ c ∈ before, p c = true) : (before ++ cs).dropWhile p = cs.dropWhile p := by
  induction before with
  | nil => rfl
  | cons c before ih =>
      rw [List.cons_append, List.dropWhile_cons_of_pos (leading c List.mem_cons_self)]
      exact ih fun d mem => leading d (List.mem_cons_of_mem c mem)

theorem dropBoth_append_left {p : Char → Bool} {before : List Char} (cs : List Char)
    (leading : ∀ c ∈ before, p c = true) : dropBoth p (before ++ cs) = dropBoth p cs := by
  rw [dropBoth, dropWhile_append_left cs leading, dropBoth]

theorem dropBoth_of_absent {p : Char → Bool} {cs : List Char} (absent : ∀ c ∈ cs, p c = false) :
    dropBoth p cs = cs := by
  have none : ∀ ds : List Char, (∀ c ∈ ds, p c = false) → ds.dropWhile p = ds := by
    intro ds absent
    cases ds with
    | nil => rfl
    | cons d ds => rw [List.dropWhile_cons, absent d List.mem_cons_self, if_neg (by decide)]
  rw [dropBoth, none cs absent, none _ fun c mem => absent c (List.mem_reverse.mp mem),
    List.reverse_reverse]

/-- The digits of a number are read as the number. -/
theorem readHex_hexDigits (v n acc : Nat) :
    readHex acc false (hexDigits v n) = some (acc * 16 ^ n + v % 16 ^ n) := by
  induction n generalizing acc with
  | zero => simp [hexDigits, readHex, Nat.mod_one]
  | succ n ih =>
      obtain ⟨value, -, -, -, others⟩ := hexDigit_reads (v / 16 ^ n)
      have digit : Json.hexDigit (v / 16 ^ n) ≠ '_' := others _ (by decide)
      rw [hexDigits_succ, readHex, if_neg digit, value]
      dsimp only
      rw [ih, Nat.mod_pow_succ, Nat.add_mul, Nat.mul_assoc, Nat.pow_succ']
      congr 1
      ring

/-- A text without a sign and a base prefix is its digits. -/
theorem intBase16_plain {a b : Char} {rest : List Char}
    (trimmed : dropBoth isIntSpace (a :: b :: rest) = a :: b :: rest) (unsigned : a ≠ '+')
    (small : b ≠ 'x') (capital : b ≠ 'X') :
    intBase16 (a :: b :: rest) = readHex 0 true (a :: b :: rest) := by
  unfold intBase16
  dsimp only
  rw [trimmed]
  have bare : (match a :: b :: rest with
      | '+' :: rest => rest
      | _ => a :: b :: rest) = a :: b :: rest := by
    split
    · rename_i same
      cases same
      exact (unsigned rfl).elim
    · rfl
  rw [bare]
  split
  · rename_i same
    cases same
    exact (small rfl).elim
  · rename_i same
    cases same
    exact (capital rfl).elim
  · rfl

theorem intBase16_hexDigits (v n : Nat) :
    intBase16 (hexDigits v (n + 2)) = some (v % 16 ^ (n + 2)) := by
  have trimmed : dropBoth isIntSpace (hexDigits v (n + 2)) = hexDigits v (n + 2) := by
    refine dropBoth_of_absent fun c mem => ?_
    obtain ⟨m, rfl⟩ := mem_hexDigits mem
    exact (hexDigit_reads m).2.1
  have whole := readHex_hexDigits v (n + 2) 0
  obtain ⟨value, -, -, -, first⟩ := hexDigit_reads (v / 16 ^ (n + 1))
  obtain ⟨-, -, -, -, second⟩ := hexDigit_reads (v / 16 ^ n)
  rw [hexDigits_succ, hexDigits_succ] at whole trimmed ⊢
  rw [intBase16_plain trimmed (first _ (by decide)) (second _ (by decide)) (second _ (by decide))]
  -- after a digit it is the same whether there was one before
  rw [readHex, if_neg (first '_' (by decide)), value] at whole ⊢
  rw [whole, Nat.zero_mul, Nat.zero_add]

/-- The 32 digits of a printed id, without the hyphens. -/
theorem filter_uuidStr (id : UUID) :
    (uuidStr id).toList.filter (· ≠ '-') = hexDigits id.toNat 32 := by
  have bare : ∀ cs : List Char, cs ⊆ hexDigits id.toNat 32 → cs.filter (· ≠ '-') = cs := by
    intro cs digits
    rw [List.filter_eq_self]
    intro c mem
    obtain ⟨m, rfl⟩ := mem_hexDigits (digits mem)
    exact decide_eq_true ((hexDigit_reads m).2.2.2.2 '-' (by decide))
  have part : ∀ m n, ((hexDigits id.toNat 32).drop m).take n ⊆ hexDigits id.toNat 32 :=
    fun m n _ mem => List.mem_of_mem_drop (List.mem_of_mem_take mem)
  simp only [uuidStr, String.toList_ofList, List.filter_append, List.filter_cons]
  rw [bare _ fun _ mem => List.mem_of_mem_take mem, bare _ (part 8 4), bare _ (part 12 4),
    bare _ (part 16 4), bare _ fun _ mem => List.mem_of_mem_drop mem]
  have rest : ∀ m, ((hexDigits id.toNat 32).drop m).take 4 ++ (hexDigits id.toNat 32).drop (m + 4) =
      (hexDigits id.toNat 32).drop m := by
    intro m
    rw [← List.drop_drop, List.take_append_drop]
  simp only [ne_eq, not_true, decide_false, Bool.false_eq_true, if_false, List.append_assoc, rest,
    List.take_append_drop]

theorem mem_uuidStr {id : UUID} {c : Char} (mem : c ∈ (uuidStr id).toList) :
    c = '-' ∨ ∃ m, c = Json.hexDigit m := by
  by_cases hyphen : c = '-'
  · exact .inl hyphen
  · have digit : c ∈ hexDigits id.toNat 32 := by
      rw [← filter_uuidStr]
      exact List.mem_filter.mpr ⟨mem, decide_eq_true hyphen⟩
    exact .inr (mem_hexDigits digit)

/-- `UUID(str(uuid)) == uuid` -/
theorem parseUuid_uuidStr (id : UUID) : parseUuid (uuidStr id) = some id := by
  have absent : 'u' ∉ (uuidStr id).toList := by
    intro mem
    rcases mem_uuidStr mem with same | ⟨m, same⟩
    · exact absurd same (by decide)
    · exact (hexDigit_reads m).2.2.2.2 'u' (by decide) same.symm
  have unbraced : ∀ c ∈ (uuidStr id).toList, decide (c.toNat = 123 ∨ c.toNat = 125) = false := by
    intro c mem
    rcases mem_uuidStr mem with rfl | ⟨m, rfl⟩
    · decide
    · obtain ⟨-, -, opening, closing, -⟩ := hexDigit_reads m
      exact decide_eq_false (not_or.mpr ⟨opening, closing⟩)
  have below : id.toNat < 16 ^ (30 + 2) := id.isLt
  unfold parseUuid
  dsimp only
  have urn : removeAll "urn:".toList (uuidStr id).toList.length (uuidStr id).toList =
      (uuidStr id).toList := removeAll_of_absent _ absent
  have uuid : removeAll "uuid:".toList (uuidStr id).toList.length (uuidStr id).toList =
      (uuidStr id).toList := removeAll_of_absent _ absent
  rw [urn, uuid, dropBoth_of_absent unbraced, filter_uuidStr, if_pos (length_hexDigits _ _),
    intBase16_hexDigits, Option.map_some, Nat.mod_eq_of_lt below, BitVec.ofNat_toNat,
    BitVec.setWidth_eq]

/-! ## `repr` -/

/-- One character inside the quotes. -/
def reprChar (quote : Char) (c : Char) : List Char :=
  if c = quote ∨ c = '\\' then ['\\', c]
  else if c = '\t' then ['\\', 't']
  else if c = '\n' then ['\\', 'n']
  else if c = '\r' then ['\\', 'r']
  else if isPrintable c then [c]
  else if c.toNat ≤ 0xFF then '\\' :: 'x' :: hexDigits c.toNat 2
  else if c.toNat ≤ 0xFFFF then '\\' :: 'u' :: hexDigits c.toNat 4
  else '\\' :: 'U' :: hexDigits c.toNat 8

/-- `repr(text)`: in double quotes only if the text has a single quote and no double one. -/
def pyRepr (text : String) : String :=
  let cs := text.toList
  let quote := if '\'' ∈ cs ∧ '"' ∉ cs then '"' else '\''
  String.ofList (quote :: cs.flatMap (reprChar quote) ++ [quote])

end Intellivault.Agent
