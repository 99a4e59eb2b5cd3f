import Mathlib.Data.List.Basic

/-!
# JSON values

The values `json.loads` can return.  An object keeps its fields in the order they were
written; `sortKeys` is the canonical form `json.dumps(.., sort_keys=True)` prints, and
two values are equal up to object key order exactly when their canonical forms are
equal (`Json.SameFields`).
-/

namespace Intellivault.Lib

/-- A JSON value.  A number is kept as its literal. -/
inductive Json where
  | null
  | bool (b : Bool)
  | num (literal : String)
  | str (s : String)
  | arr (xs : List Json)
  | obj (fields : List (String × Json))
deriving Repr, Inhabited

namespace Json

mutual

protected def decEq : (a b : Json) → Decidable (a = b)
  | .null, .null => isTrue rfl
  | .bool a, .bool b => if h : a = b then isTrue (by rw [h]) else isFalse (by simpa using h)
  | .num a, .num b => if h : a = b then isTrue (by rw [h]) else isFalse (by simpa using h)
  | .str a, .str b => if h : a = b then isTrue (by rw [h]) else isFalse (by simpa using h)
  | .arr a, .arr b =>
      match Json.decEqArr a b with
      | isTrue h => isTrue (by rw [h])
      | isFalse h => isFalse (by simpa using h)
  | .obj a, .obj b =>
      match Json.decEqObj a b with
      | isTrue h => isTrue (by rw [h])
      | isFalse h => isFalse (by simpa using h)
  | .null, .bool _ | .null, .num _ | .null, .str _ | .null, .arr _ | .null, .obj _ => isFalse nofun
  | .bool _, .null | .bool _, .num _ | .bool _, .str _ | .bool _, .arr _
  | .bool _, .obj _ => isFalse nofun
  | .num _, .null | .num _, .bool _ | .num _, .str _ | .num _, .arr _
  | .num _, .obj _ => isFalse nofun
  | .str _, .null | .str _, .bool _ | .str _, .num _ | .str _, .arr _
  | .str _, .obj _ => isFalse nofun
  | .arr _, .null | .arr _, .bool _ | .arr _, .num _ | .arr _, .str _
  | .arr _, .obj _ => isFalse nofun
  | .obj _, .null | .obj _, .bool _ | .obj _, .num _ | .obj _, .str _
  | .obj _, .arr _ => isFalse nofun

protected def decEqArr : (a b : List Json) → Decidable (a = b)
  | [], [] => isTrue rfl
  | [], _ :: _ | _ :: _, [] => isFalse nofun
  | a :: as, b :: bs =>
      match Json.decEq a b, Json.decEqArr as bs with
      | isTrue h, isTrue h' => isTrue (by rw [h, h'])
      | isFalse h, _ => isFalse (by simp [h])
      | _, isFalse h => isFalse (by simp [h])

protected def decEqObj : (a b : List (String × Json)) → Decidable (a = b)
  | [], [] => isTrue rfl
  | [], _ :: _ | _ :: _, [] => isFalse nofun
  | (k, v) :: as, (k', v') :: bs =>
      if hk : k = k' then
        match Json.decEq v v', Json.decEqObj as bs with
        | isTrue h, isTrue h' => isTrue (by rw [hk, h, h'])
        | isFalse h, _ => isFalse (by simp [h])
        | _, isFalse h => isFalse (by simp [h])
      else isFalse (by simp [hk])

end

instance : DecidableEq Json := Json.decEq

/-! ## Canonical form -/

/-- Insert a field in front of the first field with a larger key. -/
def insertField (k : String) (v : Json) : List (String × Json) → List (String × Json)
  | [] => [(k, v)]
  | (k', v') :: fs => if k ≤ k' then (k, v) :: (k', v') :: fs else (k', v') :: insertField k v fs

mutual

/-- Sort the keys of every object in the value. -/
def sortKeys : Json → Json
  | .null => .null
  | .bool b => .bool b
  | .num n => .num n
  | .str s => .str s
  | .arr xs => .arr (sortKeysArr xs)
  | .obj fs => .obj (sortKeysObj fs)

def sortKeysArr : List Json → List Json
  | [] => []
  | x :: xs => sortKeys x :: sortKeysArr xs

def sortKeysObj : List (String × Json) → List (String × Json)
  | [] => []
  | (k, v) :: fs => insertField k (sortKeys v) (sortKeysObj fs)

end

/-- Equality up to object key order, of the fields of two objects. -/
def SameFields (fs gs : List (String × Json)) : Prop := sortKeysObj fs = sortKeysObj gs

/-! ## Printing -/

def hexDigit (n : Nat) : Char :=
  if n % 16 < 10 then Char.ofNat (48 + n % 16) else Char.ofNat (87 + n % 16)

/-- A UTF-16 code unit as `json.dumps` writes it. -/
def unitEscape (n : Nat) : List Char :=
  ['\\', 'u', hexDigit (n / 4096), hexDigit (n / 256), hexDigit (n / 16), hexDigit n]

/-- One character of a string literal, with `ensure_ascii` on. -/
def escapeChar (c : Char) : List Char :=
  if c = '"' then ['\\', '"']
  else if c = '\\' then ['\\', '\\']
  else if c = '\n' then ['\\', 'n']
  else if c = '\r' then ['\\', 'r']
  else if c = '\t' then ['\\', 't']
  else if c.toNat = 12 then ['\\', 'f']
  else if c.toNat = 8 then ['\\', 'b']
  else if 32 ≤ c.toNat ∧ c.toNat ≤ 126 then [c]
  else if c.toNat < 65536 then unitEscape c.toNat
  else unitEscape (55296 + (c.toNat - 65536) / 1024) ++ unitEscape (56320 + (c.toNat - 65536) % 1024)

def dumpsString (s : String) : String :=
  String.ofList ('"' :: s.toList.flatMap escapeChar ++ ['"'])

mutual

/-- `json.dumps` with the default separators. -/
def dumps : Json → String
  | .null => "null"
  | .bool b => if b then "true" else "false"
  | .num n => n
  | .str s => dumpsString s
  | .arr xs => "[" ++ ", ".intercalate (dumpsArr xs) ++ "]"
  | .obj fs => "\x7b" ++ ", ".intercalate (dumpsObj fs) ++ "\x7d"

def dumpsArr : List Json → List String
  | [] => []
  | x :: xs => dumps x :: dumpsArr xs

def dumpsObj : List (String × Json) → List String
  | [] => []
  | (k, v) :: fs => (dumpsString k ++ ": " ++ dumps v) :: dumpsObj fs

end

/-! ## What is printed -/

/-- A character of a number literal. -/
def isNumberChar (c : Char) : Bool := c.isDigit ∨ c ∈ ['+', '-', '.', 'e', 'E']

mutual

/-- The numbers of the value are literals of numbers. -/
def WellFormed : Json → Prop
  | .null | .bool _ | .str _ => True
  | .num n => n.toList ≠ [] ∧ n.toList.all isNumberChar
  | .arr xs => WellFormedArr xs
  | .obj fs => WellFormedObj fs

def WellFormedArr : List Json → Prop
  | [] => True
  | x :: xs => WellFormed x ∧ WellFormedArr xs

def WellFormedObj : List (String × Json) → Prop
  | [] => True
  | (_, v) :: fs => WellFormed v ∧ WellFormedObj fs

end

/-- Only printable ASCII characters. -/
def Printable (cs : List Char) : Prop := ∀ c ∈ cs, 32 ≤ c.toNat ∧ c.toNat ≤ 126

instance (cs : List Char) : Decidable (Printable cs) :=
  List.decidableBAll (fun c : Char => 32 ≤ c.toNat ∧ c.toNat ≤ 126) cs

theorem Printable.append {xs ys : List Char} (hx : Printable xs) (hy : Printable ys) :
    Printable (xs ++ ys) := by
  intro c hc
  exact (List.mem_append.mp hc).elim (hx c) (hy c)

theorem Printable.cons {c : Char} {cs : List Char} (hc : 32 ≤ c.toNat ∧ c.toNat ≤ 126)
    (rest : Printable cs) : Printable (c :: cs) :=
  List.forall_mem_cons.mpr ⟨hc, rest⟩

theorem printable_hexDigit (n : Nat) : 32 ≤ (hexDigit n).toNat ∧ (hexDigit n).toNat ≤ 126 := by
  have all : ∀ m : Fin 16, 32 ≤ (hexDigit m).toNat ∧ (hexDigit m).toNat ≤ 126 := by decide
  have same : hexDigit (n % 16) = hexDigit n := by
    simp only [hexDigit, Nat.mod_mod]
  have digit := all ⟨n % 16, Nat.mod_lt n (by decide)⟩
  rwa [same] at digit

theorem printable_unitEscape (n : Nat) : Printable (unitEscape n) := by
  simp only [Printable, unitEscape, List.forall_mem_cons, printable_hexDigit, List.not_mem_nil,
    IsEmpty.forall_iff, implies_true, and_true]
  decide

theorem printable_escapeChar (c : Char) : Printable (escapeChar c) := by
  unfold escapeChar
  -- the seven short escapes
  iterate 7 refine iteInduction (motive := Printable) (fun _ => by decide) fun _ => ?_
  refine iteInduction (motive := Printable) (fun ascii => ?_) fun _ => ?_
  · exact List.forall_mem_singleton.mpr ascii
  refine iteInduction (motive := Printable) (fun _ => ?_) fun _ => ?_
  · exact printable_unitEscape _
  · exact (printable_unitEscape _).append (printable_unitEscape _)

theorem printable_dumpsString (s : String) : Printable (dumpsString s).toList := by
  rw [dumpsString, String.toList_ofList, List.cons_append]
  refine .cons (by decide) (.append ?_ (by decide))
  intro c hc
  obtain ⟨d, _, hd⟩ := List.mem_flatMap.mp hc
  exact printable_escapeChar d c hd

theorem printable_intercalate {ss : List String} (each : ∀ s ∈ ss, Printable s.toList) :
    Printable (", ".intercalate ss).toList := by
  induction ss with
  | nil => exact fun c hc => (List.not_mem_nil hc).elim
  | cons s ss ih =>
      have head := each s List.mem_cons_self
      by_cases last : ss = []
      · rwa [last, String.intercalate_singleton]
      · rw [String.intercalate_cons_of_ne_nil last, String.toList_append, String.toList_append]
        have comma : Printable (", " : String).toList := by decide
        exact (head.append comma).append (ih fun t ht => each t (List.mem_cons_of_mem _ ht))

theorem printable_num {n : String} (wf : WellFormed (.num n)) : Printable n.toList := by
  intro c hc
  have number := List.all_eq_true.mp wf.2 c hc
  simp only [isNumberChar, Char.isDigit, decide_eq_true_eq, List.mem_cons, List.not_mem_nil,
    or_false, Bool.and_eq_true] at number
  rcases number with ⟨low, high⟩ | rfl | rfl | rfl | rfl | rfl
  · exact ⟨Nat.le_trans (by decide) (UInt32.le_iff_toNat_le.mp low),
      Nat.le_trans (UInt32.le_iff_toNat_le.mp high) (by decide)⟩
  all_goals decide

mutual

/-- `json.dumps` writes printable ASCII only: no control character, no line end. -/
theorem printable_dumps : ∀ v : Json, WellFormed v → Printable (dumps v).toList
  | .null, _ => by decide
  | .bool b, _ => by cases b <;> decide
  | .num _, wf => printable_num wf
  | .str s, _ => printable_dumpsString s
  | .arr xs, wf => by
      rw [dumps, String.toList_append, String.toList_append]
      have opening : Printable ("[" : String).toList := by decide
      have closing : Printable ("]" : String).toList := by decide
      exact (opening.append (printable_intercalate (printable_dumpsArr xs wf))).append closing
  | .obj fs, wf => by
      rw [dumps, String.toList_append, String.toList_append]
      have opening : Printable ("\x7b" : String).toList := by decide
      have closing : Printable ("\x7d" : String).toList := by decide
      exact (opening.append (printable_intercalate (printable_dumpsObj fs wf))).append closing

theorem printable_dumpsArr : ∀ xs : List Json, WellFormedArr xs →
    ∀ s ∈ dumpsArr xs, Printable s.toList
  | [], _ => nofun
  | x :: xs, wf =>
      List.forall_mem_cons.mpr ⟨printable_dumps x wf.1, printable_dumpsArr xs wf.2⟩

theorem printable_dumpsObj : ∀ fs : List (String × Json), WellFormedObj fs →
    ∀ s ∈ dumpsObj fs, Printable s.toList
  | [], _ => nofun
  | (k, v) :: fs, wf => by
      refine List.forall_mem_cons.mpr ⟨?_, printable_dumpsObj fs wf.2⟩
      rw [String.toList_append, String.toList_append]
      have colon : Printable (": " : String).toList := by decide
      exact ((printable_dumpsString k).append colon).append (printable_dumps v wf.1)

end

/-- What is printed neither begins nor ends with a space. -/
theorem dumps_ends (v : Json) (wf : WellFormed v) :
    ∃ first last, (dumps v).toList.head? = some first ∧ (dumps v).toList.getLast? = some last ∧
      first ≠ ' ' ∧ last ≠ ' ' := by
  cases v with
  | null => exact ⟨'n', 'l', rfl, rfl, by decide, by decide⟩
  | bool b =>
      cases b with
      | false => exact ⟨'f', 'e', rfl, rfl, by decide, by decide⟩
      | true => exact ⟨'t', 'e', rfl, rfl, by decide, by decide⟩
  | num n =>
      have space : ∀ c ∈ n.toList, c ≠ ' ' := by
        rintro c hc rfl
        exact absurd (List.all_eq_true.mp wf.2 _ hc) (by decide)
      refine ⟨n.toList.head wf.1, n.toList.getLast wf.1, List.head?_eq_some_head wf.1,
        List.getLast?_eq_some_getLast wf.1, space _ (List.head_mem _), space _ (List.getLast_mem _)⟩
  | str s =>
      refine ⟨'"', '"', ?_, ?_, by decide, by decide⟩
      · rw [dumps, dumpsString, String.toList_ofList]
        rfl
      · rw [dumps, dumpsString, String.toList_ofList, List.cons_append, ← List.cons_append,
          List.getLast?_append_of_ne_nil _ (by simp)]
        rfl
  | arr xs =>
      refine ⟨'[', ']', ?_, ?_, by decide, by decide⟩
      · rw [dumps, String.toList_append, String.toList_append]
        rfl
      · rw [dumps, String.toList_append, List.getLast?_append_of_ne_nil _ (by simp)]
        rfl
  | obj fs =>
      refine ⟨'\x7b', '\x7d', ?_, ?_, by decide, by decide⟩
      · rw [dumps, String.toList_append, String.toList_append]
        rfl
      · rw [dumps, String.toList_append, List.getLast?_append_of_ne_nil _ (by simp)]
        rfl

end Json

end Intellivault.Lib
