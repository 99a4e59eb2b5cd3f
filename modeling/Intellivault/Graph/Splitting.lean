import Intellivault.Lib.Pieces
import Intellivault.Graph.Migrations

/-!
# A migration file and its statements

`_split_statements` drops the lines that begin with `//` and splits what is left at every `;`.
Cypher ends a statement at a `;` in code: one in a literal or in a comment belongs to the
statement, and so does a line of a literal, whatever it begins with.  `splitStatements_render`
says which files the two agree on.
-/

namespace Intellivault.Migrations

open Lib
open Agent (dropBoth isSpace)

/-! ## Cypher texts -/

/-- Where in a Cypher text the reader is. -/
inductive Mode where
  | code
  /-- In code, right after a slash. -/
  | slash
  /-- In a literal that ends at the quote. -/
  | literal (quote : Char)
  /-- In a literal, right after a backslash. -/
  | escape (quote : Char)
  | lineComment
  | blockComment
  /-- In a block comment, right after a star. -/
  | star

namespace Mode

/-- Single quote, double quote and backtick. -/
def isQuote (c : Char) : Bool := c.toNat ∈ [0x27, 0x22, 0x60]

/-- A backslash escapes in strings, but not between backticks. -/
def escapes (quote c : Char) : Bool := c.toNat = 0x5C ∧ quote.toNat ≠ 0x60

def next : Mode → Char → Mode
  | .code, c => if isQuote c then .literal c else if c = '/' then .slash else .code
  | .slash, c =>
      if isQuote c then .literal c else if c = '/' then .lineComment
      else if c = '*' then .blockComment else .code
  | .literal quote, c =>
      if c = quote then .code else if escapes quote c then .escape quote else .literal quote
  | .escape quote, _ => .literal quote
  | .lineComment, c => if c = '\n' ∨ c = '\r' then .code else .lineComment
  | .blockComment, c => if c = '*' then .star else .blockComment
  | .star, c => if c = '/' then .code else if c = '*' then .star else .blockComment

def inCode : Mode → Bool
  | .code | .slash => true
  | _ => false

end Mode

/-- A `;` in code is read. -/
def hasSeparator : Mode → List Char → Bool
  | _, [] => false
  | mode, c :: cs => mode.inCode && c = ';' || hasSeparator (mode.next c) cs

/-- Nothing but white space is before a `//`. -/
def startsComment (cs : List Char) : Bool := ['/', '/'].isPrefixOf (cs.dropWhile isSpace)

/-- A line that begins in code is a comment; `fresh` says that a line begins here. -/
def hasCommentLine : Mode → (fresh : Bool) → List Char → Bool
  | _, _, [] => false
  | mode, fresh, c :: cs =>
      fresh && mode.inCode && startsComment (c :: cs) ||
        hasCommentLine (mode.next c) (c = '\n' ∨ c = '\r') cs

/-- A Cypher statement, as it is set in a file. -/
structure Statement where
  chars : List Char
  nonblank : chars ≠ []
  trimmed : dropBoth isSpace chars = chars
  whole : hasSeparator .code chars = false
  /-- It does not end in a literal or in a comment. -/
  complete : (chars.foldl Mode.next .code).inCode = true
  uncommented : hasCommentLine .code true chars = false

theorem Statement.startsComment_eq_false (stmt : Statement) : startsComment stmt.chars = false := by
  have uncommented := stmt.uncommented
  cases chars : stmt.chars with
  | nil => exact absurd chars stmt.nonblank
  | cons c cs =>
      rw [chars, hasCommentLine, Bool.or_eq_false_iff] at uncommented
      exact uncommented.1

/-- A line without its end. -/
structure Line where
  chars : List Char
  oneLine : '\n' ∉ chars ∧ '\r' ∉ chars

/-- What a file is made of. -/
inductive Item where
  | comment (line : Line) (comments : isComment line.chars = true)
  | blank (line : Line) (blank : ∀ c ∈ line.chars, isSpace c = true)
  | statement (stmt : Statement)

namespace Item

/-- Without the newline after it. -/
def text : Item → List Char
  | .comment line _ | .blank line _ => line.chars
  | .statement stmt => stmt.chars ++ [';']

def statement? : Item → Option (List Char)
  | .comment _ _ | .blank _ _ => none
  | .statement stmt => some stmt.chars

end Item

/-- The file. -/
def render (items : List Item) : String :=
  String.ofList (items.flatMap fun item => item.text ++ ['\n'])

/-- The statements that were written to the file. -/
def written (items : List Item) : List String := (items.filterMap Item.statement?).map String.ofList

/-! ## Lines -/

theorem splitLines_crlf (line cs : List Char) :
    splitLines line ('\r' :: '\n' :: cs) = line :: splitLines [] cs := by
  rw [splitLines]

theorem splitLines_cons {c : Char} {cs : List Char} (line : List Char)
    (apart : c = '\r' → ∀ rest, cs ≠ '\n' :: rest) :
    splitLines line (c :: cs) =
      if isLineBreak c then line :: splitLines [] cs else splitLines (line ++ [c]) cs := by
  rw [splitLines]
  exact fun rest first second => apart first rest second

theorem splitLines_newline (line cs : List Char) :
    splitLines line ('\n' :: cs) = line :: splitLines [] cs := by
  have apart : '\n' = '\r' → ∀ rest, cs ≠ '\n' :: rest := fun same => absurd same (by decide)
  rw [splitLines_cons line apart]
  rfl

theorem splitLines_cons_append {c : Char} {cs : List Char} (line tail : List Char)
    (apart : ∀ rest, c = '\r' → cs = '\n' :: rest → False) (more : c = '\r' → cs ≠ []) :
    splitLines line (c :: cs ++ tail) =
      if isLineBreak c then line :: splitLines [] (cs ++ tail)
      else splitLines (line ++ [c]) (cs ++ tail) := by
  refine splitLines_cons line fun same rest joined => ?_
  cases cs with
  | nil => exact more same rfl
  | cons d cs =>
      have head : d = '\n' := (List.cons.inj joined).1
      exact apart cs same (head ▸ rfl)

/-- What comes before a newline is split apart from what comes after it. -/
theorem splitLines_append (line cs rest : List Char) :
    splitLines line (cs ++ '\n' :: rest) =
      splitLines line (cs ++ ['\n']) ++ splitLines [] rest := by
  induction line, cs using splitLines.induct with
  | case1 =>
      rw [List.nil_append, List.nil_append, splitLines_newline, splitLines_newline]
      rfl
  | case2 line =>
      rw [List.nil_append, List.nil_append, splitLines_newline, splitLines_newline]
      rfl
  | case3 line cs ih =>
      simp only [List.cons_append, splitLines_crlf, ih]
  | case4 line c cs apart breaks ih =>
      by_cases last : c = '\r' ∧ cs = []
      · -- The newline completes a `\r\n`.
        obtain ⟨rfl, rfl⟩ := last
        simp only [List.cons_append, List.nil_append, splitLines_crlf]
        rfl
      · have more : c = '\r' → cs ≠ [] := fun same empty => last ⟨same, empty⟩
        rw [splitLines_cons_append line _ apart more, splitLines_cons_append line _ apart more,
          if_pos breaks, if_pos breaks, ih]
        rfl
  | case5 line c cs apart stays ih =>
      have more : c = '\r' → cs ≠ [] := fun same => absurd (same ▸ rfl) stays
      rw [splitLines_cons_append line _ apart more, splitLines_cons_append line _ apart more,
        if_neg stays, if_neg stays, ih]

/-- A line is part of the text, and nothing in it breaks a line. -/
theorem mem_splitLines {line cs l : List Char} (mem : l ∈ splitLines line cs) {x : Char}
    (mem' : x ∈ l) : x ∈ line ∨ x ∈ cs ∧ isLineBreak x = false := by
  induction line, cs using splitLines.induct with
  | case1 => cases mem
  | case2 line filled =>
      rw [splitLines, if_neg filled, List.mem_singleton] at mem
      exact Or.inl (mem ▸ mem')
  | case3 line cs ih =>
      rw [splitLines_crlf] at mem
      rcases List.mem_cons.mp mem with rfl | mem
      · exact Or.inl mem'
      · rcases ih mem with ⟨⟨⟩⟩ | ⟨inside, plain⟩
        exact Or.inr ⟨List.mem_cons_of_mem _ (List.mem_cons_of_mem _ inside), plain⟩
  | case4 line c cs apart breaks ih =>
      rw [splitLines_cons line fun same rest equal => apart rest same equal, if_pos breaks] at mem
      rcases List.mem_cons.mp mem with rfl | mem
      · exact Or.inl mem'
      · rcases ih mem with ⟨⟨⟩⟩ | ⟨inside, plain⟩
        exact Or.inr ⟨List.mem_cons_of_mem c inside, plain⟩
  | case5 line c cs apart stays ih =>
      rw [splitLines_cons line fun same rest equal => apart rest same equal, if_neg stays] at mem
      rcases ih mem with inside | ⟨inside, plain⟩
      · rcases List.mem_append.mp inside with inside | inside
        · exact Or.inl inside
        · rw [List.mem_singleton.mp inside]
          exact Or.inr ⟨List.mem_cons_self, Bool.eq_false_iff.mpr stays⟩
      · exact Or.inr ⟨List.mem_cons_of_mem c inside, plain⟩

/-- Without a `\r` the lines are the pieces between line breaks. -/
theorem splitLines_eq_splitOnP {cs : List Char} (plain : '\r' ∉ cs) (line : List Char) :
    splitLines line (cs ++ ['\n']) = (cs.splitOnP isLineBreak).modifyHead (line ++ ·) := by
  induction cs generalizing line with
  | nil =>
      rw [List.nil_append, splitLines_newline, List.splitOnP_nil, List.modifyHead_cons,
        List.append_nil]
      rfl
  | cons c cs ih =>
      rw [List.mem_cons, not_or] at plain
      rw [List.cons_append, splitLines_cons line fun same => absurd same.symm plain.1,
        List.splitOnP_cons_eq_if_modifyHead, ih plain.2, ih plain.2]
      split
      · cases pieces : cs.splitOnP isLineBreak with
        | nil => exact absurd pieces (List.splitOnP_ne_nil isLineBreak cs)
        | cons head rest => simp only [List.modifyHead_cons, List.nil_append, List.append_nil]
      · rw [List.modifyHead_modifyHead]
        simp only [Function.comp_def, List.append_assoc, List.singleton_append]

/-! ## Comments -/

/-- Stripping does not reach a `//`. -/
theorem isComment_eq (line : List Char) : isComment line = startsComment line := by
  rw [isComment, startsComment, dropBoth, Bool.eq_iff_iff, List.isPrefixOf_iff_prefix,
    List.isPrefixOf_iff_prefix]
  constructor
  · intro starts
    refine starts.trans ⟨((line.dropWhile isSpace).reverse.takeWhile isSpace).reverse, ?_⟩
    rw [← List.reverse_append, List.takeWhile_append_dropWhile, List.reverse_reverse]
  · rintro ⟨rest, starts⟩
    rw [← starts, List.reverse_append, List.dropWhile_append]
    have slashes : ['/', '/'].reverse.dropWhile isSpace = ['/', '/'] := by decide
    rw [slashes]
    split
    · exact List.prefix_refl _
    · rw [List.reverse_append]
      exact List.prefix_append _ _

theorem startsComment_append {cs : List Char} (starts : startsComment cs = true)
    (more : List Char) : startsComment (cs ++ more) = true := by
  rw [startsComment, List.isPrefixOf_iff_prefix] at starts ⊢
  rw [List.dropWhile_append]
  split
  · rename_i empty
    rw [List.isEmpty_iff.mp empty] at starts
    cases List.prefix_nil.mp starts
  · exact starts.trans (List.prefix_append _ _)

theorem startsComment_of_semicolon {cs : List Char} (starts : startsComment (cs ++ [';']) = true) :
    startsComment cs = true := by
  rw [startsComment, List.isPrefixOf_iff_prefix] at starts ⊢
  rw [List.dropWhile_append] at starts
  split at starts
  · have other : ¬['/', '/'] <+: [';'].dropWhile isSpace := by decide
    exact absurd starts other
  · rcases List.prefix_concat_iff.mp starts with whole | inside
    · have joined : ['/'] ++ ['/'] = cs.dropWhile isSpace ++ [';'] := whole
      exact absurd (List.append_inj' joined rfl).2 (by decide)
    · exact inside

/-! ## What the splitting returns -/

/-- The lines that are not comments. -/
def keptLines (text : List Char) : List (List Char) :=
  (splitLines [] text).filter fun line => ¬isComment line

/-- The pieces between `;`, without the blank ones. -/
def pieces (body : List Char) : List (List Char) :=
  ((body.splitOn ';').map (dropBoth isSpace)).filter (· ≠ [])

theorem pieces_append (before after : List Char) :
    pieces (before ++ ';' :: after) = pieces before ++ pieces after := by
  rw [pieces, List.splitOn_append_cons_self, List.map_append, List.filter_append]
  rfl

theorem pieces_space {c : Char} (body : List Char) (space : isSpace c = true) :
    pieces (c :: body) = pieces body := by
  have other : ¬(c == ';') = true := by
    intro same
    rw [eq_of_beq same] at space
    exact absurd space (by decide)
  rw [pieces, pieces, List.splitOn_cons_eq_if_modifyHead, if_neg other]
  cases body.splitOn ';' with
  | nil => rfl
  | cons head rest =>
      have spaces : ∀ d ∈ [c], isSpace d = true := fun d mem => List.mem_singleton.mp mem ▸ space
      have same : dropBoth isSpace (c :: head) = dropBoth isSpace head :=
        Agent.dropBoth_append_left head spaces
      rw [List.modifyHead_cons, List.map_cons, same, List.map_cons]

/-- White space and `;` in front add no statement. -/
theorem pieces_idle {idle : List Char} (body : List Char)
    (nothing : ∀ c ∈ idle, isSpace c = true ∨ c = ';') : pieces (idle ++ body) = pieces body := by
  induction idle with
  | nil => rfl
  | cons c idle ih =>
      have rest := ih fun d mem => nothing d (List.mem_cons_of_mem c mem)
      rcases nothing c List.mem_cons_self with space | rfl
      · rw [List.cons_append, pieces_space _ space, rest]
      · exact (pieces_append [] (idle ++ body)).trans rest

theorem pieces_of_statement {cs : List Char} (nonblank : cs ≠ [])
    (trimmed : dropBoth isSpace cs = cs) (one : ';' ∉ cs) : pieces cs = [cs] := by
  rw [pieces, List.splitOn_eq_singleton one, List.map_singleton, trimmed]
  exact List.filter_cons_of_pos (decide_eq_true nonblank)

theorem mem_pieces {body piece : List Char} (mem : piece ∈ pieces body) :
    ';' ∉ piece ∧ piece <:+: body := by
  obtain ⟨part, found, rfl⟩ := List.mem_map.mp (List.mem_of_mem_filter mem)
  refine ⟨fun inside => not_mem_of_mem_splitOn found (Agent.mem_of_mem_dropBoth inside), ?_⟩
  obtain ⟨before, after, split, -⟩ := Agent.dropBoth_spec isSpace part
  have inner : dropBoth isSpace part <:+: part := ⟨before, after, split.symm⟩
  exact inner.trans (infix_of_mem_splitOn found)

theorem splitStatements_eq (text : List Char) :
    splitStatements (String.ofList text) =
      (pieces ((keptLines text).flatMap ('\n' :: ·))).map String.ofList := by
  have body : pieces (['\n'].intercalate (keptLines text)) =
      pieces ((keptLines text).flatMap ('\n' :: ·)) := by
    by_cases empty : keptLines text = []
    · rw [empty]
      rfl
    · rw [flatMap_cons_eq_intercalate '\n' empty, pieces_space _ (by decide)]
  rw [← body, splitStatements, String.toList_ofList]
  rfl

/-! ### Counting -/

/-- A character that no step of the splitting drops. -/
def solid (c : Char) : Bool := ¬(isSpace c = true ∨ c = ';')

theorem countP_solid_dropBoth (cs : List Char) :
    (dropBoth isSpace cs).countP solid = cs.countP solid := by
  obtain ⟨before, after, split, leading, trailing⟩ := Agent.dropBoth_spec isSpace cs
  have none : ∀ ds : List Char, (∀ c ∈ ds, isSpace c = true) → ds.countP solid = 0 := by
    intro ds spaces
    rw [List.countP_eq_zero]
    intro c mem
    simp [solid, spaces c mem]
  conv_rhs => rw [split]
  rw [List.countP_append, List.countP_append, none before leading, none after trailing]
  omega

theorem sum_countP_pieces (body : List Char) :
    ((pieces body).map (List.countP solid)).sum = body.countP solid := by
  have filtered : ∀ parts : List (List Char),
      ((parts.filter (· ≠ [])).map (List.countP solid)).sum =
        (parts.map (List.countP solid)).sum := by
    intro parts
    induction parts with
    | nil => rfl
    | cons part parts ih =>
        by_cases empty : part = []
        · rw [List.filter_cons_of_neg (by simpa using empty), ih, empty]
          simp
        · have stays := List.filter_cons_of_pos (p := (· ≠ [])) (l := parts) (decide_eq_true empty)
          rw [stays, List.map_cons, List.map_cons, List.sum_cons,
            List.sum_cons, ih]
  rw [pieces, filtered, List.map_map, ← sum_countP_splitOn (x := ';') (by decide) body]
  exact congrArg List.sum (List.map_congr_left fun part _ => countP_solid_dropBoth part)

/-! ## Files -/

theorem keptLines_append (text rest : List Char) :
    keptLines (text ++ '\n' :: rest) = keptLines (text ++ ['\n']) ++ keptLines rest := by
  rw [keptLines, splitLines_append, List.filter_append]
  rfl

theorem mem_keptLines {text line : List Char} (mem : line ∈ keptLines text) :
    line ∈ splitLines [] text ∧ isComment line = false := by
  obtain ⟨mem, kept⟩ := List.mem_filter.mp mem
  exact ⟨mem, by simpa using kept⟩

namespace Item

/-- What is left of the item when comments have been dropped, each line behind its newline. -/
def body (item : Item) : List Char := (keptLines (item.text ++ ['\n'])).flatMap ('\n' :: ·)

theorem flatMap_body (items : List Item) :
    (keptLines (items.flatMap fun item => item.text ++ ['\n'])).flatMap ('\n' :: ·) =
      items.flatMap body := by
  induction items with
  | nil => rfl
  | cons item items ih =>
      rw [List.flatMap_cons, List.append_assoc, List.singleton_append, keptLines_append,
        List.flatMap_append, ih]
      rfl

theorem mem_body {item : Item} {c : Char} (mem : c ∈ item.body) :
    c = '\n' ∨ c ∈ item.text ∧ isLineBreak c = false := by
  obtain ⟨line, found, mem⟩ := List.mem_flatMap.mp mem
  rcases List.mem_cons.mp mem with newline | mem
  · exact Or.inl newline
  · rcases mem_splitLines (mem_keptLines found).1 mem with ⟨⟨⟩⟩ | ⟨inside, plain⟩
    rcases List.mem_append.mp inside with inside | newline
    · exact Or.inr ⟨inside, plain⟩
    · exact Or.inl (List.mem_singleton.mp newline)

end Item

/-- Nothing in the statement is more to the code than to Cypher: there is no `;`, no line break
but `\n`, and no line that begins with `//`. -/
structure Statement.Intact (stmt : Statement) : Prop where
  unsplit : ';' ∉ stmt.chars
  breaks : ∀ c ∈ stmt.chars, isLineBreak c = true → c = '\n'
  lines : ∀ line ∈ stmt.chars.splitOn '\n', isComment line = false

/-- A comment is a line to Cypher, but `str.splitlines` breaks it at more characters.  What
follows such a break is dropped if it is a comment too, and adds nothing if it is only white
space and `;`. -/
def Line.Vanishes (line : Line) : Prop :=
  ∀ part ∈ line.chars.splitOnP isLineBreak,
    isComment part = true ∨ ∀ c ∈ part, isSpace c = true ∨ c = ';'

namespace Item

theorem body_statement {stmt : Statement} (intact : stmt.Intact) :
    (statement stmt).body = '\n' :: (stmt.chars ++ [';']) := by
  have breaks : ∀ c ∈ stmt.chars ++ [';'], isLineBreak c = (c == '\n') := by
    intro c mem
    rw [Bool.eq_iff_iff, beq_iff_eq]
    rcases List.mem_append.mp mem with inside | last
    · exact ⟨intact.breaks c inside, fun newline => newline ▸ rfl⟩
    · rw [List.mem_singleton.mp last]
      decide
  have oneKind : '\r' ∉ stmt.chars ++ [';'] := fun mem => absurd (breaks _ mem) (by decide)
  have lines : splitLines [] (stmt.chars ++ [';'] ++ ['\n']) =
      (stmt.chars ++ [';']).splitOn '\n' := by
    rw [splitLines_eq_splitOnP oneKind, splitOnP_congr breaks, List.splitOn_eq_splitOnP]
    cases (stmt.chars ++ [';']).splitOnP (· == '\n') <;> rfl
  have stays : ∀ line ∈ (stmt.chars ++ [';']).splitOn '\n', isComment line = false := by
    intro line mem
    rcases mem_splitOn_append (by decide) mem with inside | ⟨last, inside, rfl⟩
    · exact intact.lines line inside
    · have kept := intact.lines last inside
      rw [isComment_eq] at kept ⊢
      exact Bool.eq_false_iff.mpr fun starts =>
        Bool.eq_false_iff.mp kept (startsComment_of_semicolon starts)
  have all : keptLines (stmt.chars ++ [';'] ++ ['\n']) = (stmt.chars ++ [';']).splitOn '\n' := by
    rw [keptLines, lines, List.filter_eq_self]
    intro line mem
    rw [stays line mem]
    rfl
  rw [body, text, all, flatMap_splitOn]

theorem body_blank {line : Line} (blank : ∀ c ∈ line.chars, isSpace c = true) :
    ∀ c ∈ (Item.blank line blank).body, isSpace c = true ∨ c = ';' := by
  intro c mem
  rcases mem_body mem with rfl | ⟨inside, -⟩
  · exact Or.inl (by decide)
  · exact Or.inl (blank c inside)

theorem body_comment {line : Line} (comments : isComment line.chars = true) :
    (∀ c ∈ (Item.comment line comments).body, isSpace c = true ∨ c = ';') ↔ line.Vanishes := by
  have lines : keptLines (line.chars ++ ['\n']) =
      (line.chars.splitOnP isLineBreak).filter fun part => ¬isComment part := by
    rw [keptLines, splitLines_eq_splitOnP line.oneLine.2]
    cases line.chars.splitOnP isLineBreak <;> rfl
  have member : ∀ c, c ∈ (Item.comment line comments).body ↔
      ∃ part ∈ line.chars.splitOnP isLineBreak, ¬isComment part ∧ (c = '\n' ∨ c ∈ part) := by
    intro c
    rw [body, text, lines]
    simp only [List.mem_flatMap, List.mem_filter, List.mem_cons, decide_eq_true_eq, and_assoc]
  constructor
  · intro idle part mem
    by_cases dropped : isComment part = true
    · exact Or.inl dropped
    · exact Or.inr fun c inside => idle c ((member c).mpr ⟨part, mem, dropped, Or.inr inside⟩)
  · intro vanishes c mem
    obtain ⟨part, mem, stays, inside⟩ := (member c).mp mem
    rcases inside with rfl | inside
    · exact Or.inl (by decide)
    · exact (vanishes part mem).resolve_left stays c inside

end Item

/-- A file in which no comment is taken for a statement and no statement for anything else. -/
theorem pieces_body {items : List Item}
    (intact : ∀ stmt, Item.statement stmt ∈ items → stmt.Intact)
    (vanish : ∀ line comments, Item.comment line comments ∈ items → line.Vanishes) :
    pieces (items.flatMap Item.body) = items.filterMap Item.statement? := by
  induction items with
  | nil => rfl
  | cons item items ih =>
      have rest := ih (fun stmt mem => intact stmt (List.mem_cons_of_mem item mem))
        fun line comments mem => vanish line comments (List.mem_cons_of_mem item mem)
      rw [List.flatMap_cons]
      cases item with
      | comment line comments =>
          have idle := (Item.body_comment comments).mpr (vanish line comments List.mem_cons_self)
          rw [pieces_idle _ idle, rest]
          rfl
      | blank line blank =>
          rw [pieces_idle _ (Item.body_blank blank), rest]
          rfl
      | statement stmt =>
          have whole := intact stmt List.mem_cons_self
          rw [Item.body_statement whole, List.cons_append, List.append_assoc, List.singleton_append,
            pieces_space _ (by decide), pieces_append,
            pieces_of_statement stmt.nonblank stmt.trimmed whole.unsplit, rest]
          rfl

/-! ## What a file that reads back is like -/

/-- A statement the code returns has none of the faults of its file but in its first line. -/
theorem Statement.intact_of_mem_pieces {stmt : Statement} {text : List Char}
    (mem : stmt.chars ∈ pieces ((keptLines text).flatMap ('\n' :: ·))) : stmt.Intact := by
  obtain ⟨unsplit, inside⟩ := mem_pieces mem
  have plain : ∀ line ∈ keptLines text, ∀ c ∈ line, isLineBreak c = false := by
    intro line found c mem
    rcases mem_splitLines (mem_keptLines found).1 mem with ⟨⟨⟩⟩ | ⟨-, plain⟩
    exact plain
  have lines : ((keptLines text).flatMap ('\n' :: ·)).splitOn '\n' = [] :: keptLines text := by
    refine splitOn_of_flatMap ?_ rfl
    intro line found newline
    rcases List.mem_cons.mp found with rfl | found
    · cases newline
    · exact absurd (plain line found _ newline) (by decide)
  refine ⟨unsplit, ?_, ?_⟩
  · intro c mem breaks
    obtain ⟨line, found, mem⟩ := List.mem_flatMap.mp (inside.subset mem)
    rcases List.mem_cons.mp mem with newline | mem
    · exact newline
    · rw [plain line found c mem] at breaks
      cases breaks
  · intro line mem
    rw [isComment_eq, Bool.eq_false_iff]
    intro starts
    rcases mem_splitOn_of_infix inside mem with ⟨rest, first⟩ | ⟨more, found⟩
    · -- The first line begins in code.
      have begins := startsComment_append starts rest
      rw [first, stmt.startsComment_eq_false] at begins
      cases begins
    · rw [lines] at found
      have whole := startsComment_append starts more
      rcases List.mem_cons.mp found with empty | found
      · rw [empty] at whole
        exact absurd whole (by decide)
      · rw [← isComment_eq, (mem_keptLines found).2] at whole
        cases whole

/-- What is counted of the statements. -/
def solidWritten (items : List Item) : Nat :=
  ((items.filterMap Item.statement?).map (List.countP solid)).sum

theorem solidWritten_append (items more : List Item) :
    solidWritten (items ++ more) = solidWritten items + solidWritten more := by
  rw [solidWritten, List.filterMap_append, List.map_append, List.sum_append]
  rfl

/-- Intact statements are all in what is left of the file. -/
theorem solidWritten_le {items : List Item}
    (intact : ∀ stmt, Item.statement stmt ∈ items → stmt.Intact) :
    solidWritten items ≤ (items.flatMap Item.body).countP solid := by
  induction items with
  | nil => exact Nat.le_refl 0
  | cons item items ih =>
      have rest := ih fun stmt mem => intact stmt (List.mem_cons_of_mem item mem)
      rw [List.flatMap_cons, List.countP_append, ← List.singleton_append, solidWritten_append]
      refine Nat.add_le_add ?_ rest
      cases item with
      | comment line comments => exact Nat.zero_le _
      | blank line blank => exact Nat.zero_le _
      | statement stmt =>
          rw [Item.body_statement (intact stmt List.mem_cons_self), List.countP_cons,
            List.countP_append]
          change stmt.chars.countP solid + 0 ≤ _
          omega

/-- If what is left of a file counts no more than its statements, the rest is idle. -/
theorem idle_of_solidWritten {items : List Item}
    (intact : ∀ stmt, Item.statement stmt ∈ items → stmt.Intact)
    (all : (items.flatMap Item.body).countP solid = solidWritten items) {item : Item}
    (mem : item ∈ items) (other : item.statement? = none) :
    ∀ c ∈ item.body, isSpace c = true ∨ c = ';' := by
  obtain ⟨before, after, rfl⟩ := List.append_of_mem mem
  have first := solidWritten_le fun stmt mem => intact stmt (List.mem_append_left _ mem)
  have last := solidWritten_le fun stmt mem =>
    intact stmt (List.mem_append_right before (List.mem_cons_of_mem item mem))
  have own : solidWritten [item] = 0 := by
    rw [solidWritten, List.filterMap_cons_none other]
    rfl
  rw [List.flatMap_append, List.flatMap_cons, List.countP_append, List.countP_append,
    solidWritten_append, ← List.singleton_append, solidWritten_append, own] at all
  have none : item.body.countP solid = 0 := by omega
  intro c inside
  have idle := List.countP_eq_zero.mp none c inside
  exact Decidable.not_not.mp fun kept => idle (decide_eq_true kept)

/-- **What `_split_statements` reads back.**  The statements come back as they were written
exactly if each of them is intact and each comment vanishes. -/
theorem splitStatements_render (items : List Item) :
    splitStatements (render items) = written items ↔
      (∀ stmt, Item.statement stmt ∈ items → stmt.Intact) ∧
        ∀ line comments, Item.comment line comments ∈ items → line.Vanishes := by
  have split : splitStatements (render items) = written items ↔
      pieces (items.flatMap Item.body) = items.filterMap Item.statement? := by
    rw [render, splitStatements_eq, Item.flatMap_body, written]
    exact List.map_inj_right fun _ _ => String.ofList_inj.mp
  rw [split]
  constructor
  · intro same
    have intact : ∀ stmt, Item.statement stmt ∈ items → stmt.Intact := by
      intro stmt mem
      have found : stmt.chars ∈ pieces (items.flatMap Item.body) :=
        same ▸ List.mem_filterMap.mpr ⟨_, mem, rfl⟩
      rw [← Item.flatMap_body] at found
      exact Statement.intact_of_mem_pieces found
    refine ⟨intact, fun line comments mem => (Item.body_comment comments).mp ?_⟩
    have all := sum_countP_pieces (items.flatMap Item.body)
    rw [same] at all
    exact idle_of_solidWritten intact all.symm mem rfl
  · exact fun ⟨intact, vanish⟩ => pieces_body intact vanish

/-- A statement with a `;` in a string. -/
def listing : Statement where
  chars := "RETURN 'a;b'".toList
  nonblank := by decide
  trimmed := by decide
  whole := by decide
  complete := by decide
  uncommented := by decide

/-- The code cuts the string in two. -/
theorem splitStatements_listing :
    splitStatements (render [.statement listing]) = ["RETURN 'a", "b'"] ∧
      splitStatements (render [.statement listing]) ≠ written [.statement listing] := by
  have found : splitStatements (render [.statement listing]) = ["RETURN 'a", "b'"] := by
    rw [render, splitStatements_eq]
    decide
  refine ⟨found, ?_⟩
  rw [found]
  decide

/-- A line of a string goes like a comment. -/
example : splitStatements "RETURN 'a\n// b\nc';\n" = ["RETURN 'a\nc'"] := by decide

end Intellivault.Migrations
