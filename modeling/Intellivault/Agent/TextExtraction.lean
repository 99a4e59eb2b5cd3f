import Intellivault.Agent.Fetch

/-!
# The text of a page

What `_TextExtractor` keeps of a page, as a tree.  The class has one counter for five tags; on
the events of a tree it counts the skipped elements that are open.
-/

namespace Intellivault.Agent.Fetch

/-! ## Words -/

/-- The words of `text.split()`, as characters. -/
def wordsOf (cs : List Char) : List (List Char) := (cs.splitOnP isSpace).filter (· ≠ [])

theorem words_eq (text : String) : words text = (wordsOf text.toList).map String.ofList := rfl

theorem wordsOf_nil : wordsOf [] = [] := rfl

theorem wordsOf_append_space {sep : Char} (xs ys : List Char) (space : isSpace sep = true) :
    wordsOf (xs ++ sep :: ys) = wordsOf xs ++ wordsOf ys := by
  rw [wordsOf, List.splitOnP_append_cons xs ys space, List.filter_append]
  rfl

theorem wordsOf_spaces {spaces : List Char} (blank : ∀ c ∈ spaces, isSpace c = true) :
    wordsOf spaces = [] := by
  induction spaces with
  | nil => rfl
  | cons c spaces ih =>
      have rest := ih fun d mem => blank d (List.mem_cons_of_mem c mem)
      have step := wordsOf_append_space [] spaces (blank c List.mem_cons_self)
      rwa [wordsOf_nil, rest] at step

theorem wordsOf_spaces_append {spaces : List Char} (cs : List Char)
    (blank : ∀ c ∈ spaces, isSpace c = true) : wordsOf (spaces ++ cs) = wordsOf cs := by
  induction spaces with
  | nil => rfl
  | cons c spaces ih =>
      have rest := ih fun d mem => blank d (List.mem_cons_of_mem c mem)
      have step := wordsOf_append_space [] (spaces ++ cs) (blank c List.mem_cons_self)
      rwa [wordsOf_nil, rest] at step

theorem wordsOf_append_spaces {spaces : List Char} (cs : List Char)
    (blank : ∀ c ∈ spaces, isSpace c = true) : wordsOf (cs ++ spaces) = wordsOf cs := by
  cases spaces with
  | nil => rw [List.append_nil]
  | cons c spaces =>
      have rest := wordsOf_spaces fun d mem => blank d (List.mem_cons_of_mem c mem)
      rw [wordsOf_append_space cs spaces (blank c List.mem_cons_self), rest, List.append_nil]

/-- Stripping a text leaves its words. -/
theorem words_strip (text : String) : words (strip text) = words text := by
  obtain ⟨before, after, split, leading, trailing⟩ := dropBoth_spec isSpace text.toList
  have stripped : wordsOf text.toList = wordsOf (dropBoth isSpace text.toList) := by
    conv_lhs => rw [split]
    rw [wordsOf_append_spaces _ trailing, wordsOf_spaces_append _ leading]
  rw [words_eq, words_eq, strip, String.toList_ofList, stripped]

theorem words_of_blank {text : String} (blank : strip text = "") : words text = [] := by
  rw [← words_strip, blank]
  rfl

/-- The words of texts that are joined by spaces are the words of the texts. -/
theorem words_intercalate (texts : List String) :
    words (" ".intercalate texts) = texts.flatMap words := by
  induction texts with
  | nil => rw [String.intercalate_nil]; rfl
  | cons text texts ih =>
      by_cases last : texts = []
      · rw [last, String.intercalate_singleton, List.flatMap_singleton]
      · have space : isSpace ' ' = true := by decide
        have joined := wordsOf_append_space text.toList (" ".intercalate texts).toList space
        rw [String.intercalate_cons_of_ne_nil last, words_eq, List.flatMap_cons, ← ih]
        simp only [String.toList_append]
        have one : " ".toList = [' '] := rfl
        rw [one, List.append_assoc, List.singleton_append, joined, List.map_append]
        rfl

/-! ## Pages -/

/-- What follows in a page inside the elements `ancestors`, innermost first. -/
inductive Page : (ancestors : List String) → Type where
  | done {ancestors : List String} : Page ancestors
  | data {ancestors : List String} (data : String) (rest : Page ancestors) : Page ancestors
  | element {ancestors : List String} (tag : String) (children : Page (tag :: ancestors))
      (rest : Page ancestors) : Page ancestors
  /-- An element without an end tag; no skipped tag is void. -/
  | void {ancestors : List String} (tag : String) (plain : tag ∉ skipTags)
      (rest : Page ancestors) : Page ancestors
  | selfClosing {ancestors : List String} (tag : String) (rest : Page ancestors) : Page ancestors
  /-- An end tag that closes nothing.  Inside a skipped element it is of an ordinary tag. -/
  | surplus {ancestors : List String} (tag : String)
      (outside : (∀ a ∈ ancestors, a ∉ skipTags) ∨ tag ∉ skipTags) (rest : Page ancestors) :
      Page ancestors

namespace Page

/-- What the parser reports.  For a self-closing tag it reports both tags. -/
def events {ancestors : List String} : Page ancestors → List HtmlEvent
  | .done => []
  | .data text rest => .data text :: rest.events
  | .element tag children rest =>
      .startTag tag :: (children.events ++ .endTag tag :: rest.events)
  | .void tag _ rest => .startTag tag :: rest.events
  | .selfClosing tag rest => .startTag tag :: .endTag tag :: rest.events
  | .surplus tag _ rest => .endTag tag :: rest.events

/-- The data that has no skipped element among its ancestors. -/
def visible {ancestors : List String} : Page ancestors → List String
  | .done => []
  | .data text rest =>
      if ∀ a ∈ ancestors, a ∉ skipTags then text :: rest.visible else rest.visible
  | .element _ children rest => children.visible ++ rest.visible
  | .void _ _ rest | .selfClosing _ rest | .surplus _ _ rest => rest.visible

/-- The page without its surplus end tags. -/
def wellNested {ancestors : List String} : Page ancestors → Page ancestors
  | .done => .done
  | .data text rest => .data text rest.wellNested
  | .element tag children rest => .element tag children.wellNested rest.wellNested
  | .void tag plain rest => .void tag plain rest.wellNested
  | .selfClosing tag rest => .selfClosing tag rest.wellNested
  | .surplus _ _ rest => rest.wellNested

end Page

/-! ## What is kept -/

/-- The skipped elements that are open. -/
def openSkipped (ancestors : List String) : Nat := ancestors.countP (· ∈ skipTags)

theorem openSkipped_eq_zero {ancestors : List String} :
    openSkipped ancestors = 0 ↔ ∀ a ∈ ancestors, a ∉ skipTags := by
  rw [openSkipped, List.countP_eq_zero]
  simp only [decide_eq_true_eq]

theorem openSkipped_cons_of_mem {tag : String} (ancestors : List String) (mem : tag ∈ skipTags) :
    openSkipped (tag :: ancestors) = openSkipped ancestors + 1 :=
  List.countP_cons_of_pos (decide_eq_true mem)

theorem openSkipped_cons_of_not_mem {tag : String} (ancestors : List String)
    (plain : tag ∉ skipTags) : openSkipped (tag :: ancestors) = openSkipped ancestors :=
  List.countP_cons_of_neg (by simpa using plain)

/-- What the extractor keeps of data: each text that is not blank, stripped. -/
def kept (texts : List String) : List String := (texts.map strip).filter (· ≠ "")

theorem kept_append (texts more : List String) :
    kept (texts ++ more) = kept texts ++ kept more := by
  rw [kept, List.map_append, List.filter_append]
  rfl

theorem flatMap_words_kept (texts : List String) :
    (kept texts).flatMap words = texts.flatMap words := by
  induction texts with
  | nil => rfl
  | cons text texts ih =>
      have head : (kept [text]).flatMap words = words text := by
        by_cases blank : strip text = ""
        · have none : kept [text] = [] := by simp [kept, blank]
          rw [none, words_of_blank blank]
          rfl
        · have one : kept [text] = [strip text] := by simp [kept, blank]
          rw [one, List.flatMap_singleton, words_strip]
      rw [← List.singleton_append, kept_append, List.flatMap_append, ih, head, List.flatMap_append,
        List.flatMap_singleton]

/-- The parser inside `ancestors`, with what it has kept. -/
def TextExtractor.inside (ancestors : List String) (chunks : List String) : TextExtractor :=
  { skipDepth := openSkipped ancestors, chunks }

namespace TextExtractor

variable (ancestors chunks : List String)

theorem on_startTag (tag : String) :
    (inside ancestors chunks).on (.startTag tag) = inside (tag :: ancestors) chunks := by
  by_cases skipped : tag ∈ skipTags
  · rw [inside, inside, openSkipped_cons_of_mem ancestors skipped, on, if_pos skipped]
  · rw [inside, inside, openSkipped_cons_of_not_mem ancestors skipped, on, if_neg skipped]

theorem on_endTag (tag : String) :
    (inside (tag :: ancestors) chunks).on (.endTag tag) = inside ancestors chunks := by
  by_cases skipped : tag ∈ skipTags
  · rw [inside, inside, openSkipped_cons_of_mem ancestors skipped, on, if_pos skipped]
    rfl
  · rw [inside, inside, openSkipped_cons_of_not_mem ancestors skipped, on, if_neg skipped]

/-- The counter stays at zero when nothing that is skipped is open. -/
theorem on_surplus {tag : String} (outside : (∀ a ∈ ancestors, a ∉ skipTags) ∨ tag ∉ skipTags) :
    (inside ancestors chunks).on (.endTag tag) = inside ancestors chunks := by
  by_cases skipped : tag ∈ skipTags
  · have zero := openSkipped_eq_zero.mpr (outside.resolve_right (not_not_intro skipped))
    rw [inside, zero, on, if_pos skipped]
    rfl
  · rw [on, if_neg skipped]

theorem on_void {tag : String} (plain : tag ∉ skipTags) :
    (inside ancestors chunks).on (.startTag tag) = inside ancestors chunks := by
  rw [on, if_neg plain]

theorem on_data (text : String) :
    (inside ancestors chunks).on (.data text) =
      inside ancestors (chunks ++ kept (if ∀ a ∈ ancestors, a ∉ skipTags then [text] else [])) := by
  by_cases shown : ∀ a ∈ ancestors, a ∉ skipTags
  · have zero := openSkipped_eq_zero.mpr shown
    rw [if_pos shown]
    by_cases blank : strip text = ""
    · simp [on, inside, kept, blank]
    · simp [on, inside, kept, blank, zero]
  · have counted : openSkipped ancestors ≠ 0 := fun zero => shown (openSkipped_eq_zero.mp zero)
    rw [if_neg shown]
    simp [on, inside, kept, counted]

/-- Over the events of a page the counter comes back, and what is kept is what is visible. -/
theorem foldl_events {ancestors : List String} (page : Page ancestors) (chunks : List String) :
    page.events.foldl on (inside ancestors chunks) =
      inside ancestors (chunks ++ kept page.visible) := by
  induction page generalizing chunks with
  | done => rw [Page.visible, kept, List.map_nil, List.filter_nil, List.append_nil]; rfl
  | @data ancestors text rest ih =>
      rw [Page.events, List.foldl_cons, on_data, ih, List.append_assoc, ← kept_append, Page.visible]
      split <;> rfl
  | element tag children rest inner ih =>
      rw [Page.events, List.foldl_cons, on_startTag, List.foldl_append, inner, List.foldl_cons,
        on_endTag, ih, List.append_assoc, ← kept_append, Page.visible]
  | void tag plain rest ih => rw [Page.events, List.foldl_cons, on_void _ _ plain, ih, Page.visible]
  | selfClosing tag rest ih =>
      rw [Page.events, List.foldl_cons, on_startTag, List.foldl_cons, on_endTag, ih, Page.visible]
  | surplus tag outside rest ih =>
      rw [Page.events, List.foldl_cons, on_surplus _ _ outside, ih, Page.visible]

end TextExtractor

theorem Page.visible_wellNested {ancestors : List String} (page : Page ancestors) :
    page.wellNested.visible = page.visible := by
  induction page with
  | done => rfl
  | data text rest ih => rw [wellNested, visible, visible, ih]
  | element tag children rest inner ih => rw [wellNested, visible, visible, inner, ih]
  | void tag plain rest ih => rw [wellNested, visible, visible, ih]
  | selfClosing tag rest ih => rw [wellNested, visible, visible, ih]
  | surplus tag outside rest ih => rw [wellNested, visible, ih]

/-- The texts joined, with every run of white space as one space. -/
def normalised (texts : List String) : String := " ".intercalate (words (" ".intercalate texts))

theorem normalised_kept (texts : List String) : normalised (kept texts) = normalised texts := by
  rw [normalised, normalised, words_intercalate, words_intercalate, flatMap_words_kept]

theorem text_foldl_events (page : Page []) :
    (page.events.foldl TextExtractor.on {}).text = normalised page.visible := by
  have final := TextExtractor.foldl_events page []
  rw [List.nil_append] at final
  have text : ∀ chunks, (TextExtractor.inside [] chunks).text = normalised chunks := fun _ => rfl
  rw [← normalised_kept, ← text, ← final]
  rfl

/-- The text of a page is its visible text, and surplus end tags do not change it. -/
theorem text_eq_visible (page : Page []) :
    (page.events.foldl TextExtractor.on {}).text = normalised page.visible ∧
      (page.events.foldl TextExtractor.on {}).text =
        (page.wellNested.events.foldl TextExtractor.on {}).text := by
  refine ⟨text_foldl_events page, ?_⟩
  rw [text_foldl_events, text_foldl_events, Page.visible_wellNested]

end Intellivault.Agent.Fetch
