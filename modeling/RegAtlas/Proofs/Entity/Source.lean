import RegAtlas.Proofs.Entity.Declaration
import RegAtlas.Proofs.Entity.Line
import RegAtlas.Proofs.Entity.Run

/-!
# Written entities

The lines of an entity with its two lists, and what the reader makes of them: the declarations and
headings that were written, in their order, with the comment lines of each joined.
-/

namespace RegAtlas.Entity

/-! ### Lists and their rows -/

/-- One of the two lists of an entity: how a declaration is written and what the reader does with it
in the list. -/
structure Listing (α : Type) where
  /-- The state of a reader in the list. -/
  state : State
  /-- Appends to the list. -/
  append : Interface → List (Entry α) → Interface
  /-- The first line of the list. -/
  start : String
  /-- The line of a declaration. -/
  line : α → String
  IsWritable : α → Prop
  describe : String → α → α
  isList : state.IsList
  append_nil : ∀ i, append i [] = i
  append_append : ∀ i es es', append (append i es) es' = append i (es ++ es')
  feed_start : ∀ last comment i warnings,
    (Reader.mk .entity last comment i warnings).feed start = .mk state .entity comment i warnings
  /-- A declaration takes the comment that waits for it. -/
  feed_line : ∀ last comment i warnings d, IsWritable d →
    (Reader.mk state last comment i warnings).feed (line d) =
      .mk state last "" (append i [.declaration (describe comment d)]) warnings
  /-- So does the heading that a rule ends. -/
  feed_closing : ∀ comment i warnings n, 4 ≤ n →
    (Reader.mk .titled state comment i warnings).feed (Line.ofRule n) =
      .mk state .titled "" (append i [.heading comment]) warnings

/-- A row of a list with the comment lines that it is written with. -/
inductive Row (α : Type) where
  /-- A declaration below its comment lines. -/
  | declaration (comments : List String) (d : α)
  /-- Comment lines between two rules, with the number of dashes in each rule. -/
  | heading (opening : Nat) (comments : List String) (closing : Nat)

namespace Row

variable {α : Type}

def lines (l : Listing α) : Row α → List String
  | declaration comments d => comments.map Line.ofComment ++ [l.line d]
  | heading opening comments closing =>
    Line.ofRule opening :: (comments.map Line.ofComment ++ [Line.ofRule closing])

/-- What a row says: its comment lines are one text. -/
def entry (l : Listing α) : Row α → Entry α
  | declaration comments d => .declaration (l.describe (" ".intercalate comments) d)
  | heading _ comments _ => .heading (" ".intercalate comments)

def IsWritable (l : Listing α) : Row α → Prop
  | declaration comments d => (∀ text ∈ comments, Line.IsCommentText text) ∧ l.IsWritable d
  | heading opening comments closing =>
    4 ≤ opening ∧ (∀ text ∈ comments, Line.IsCommentText text) ∧ 4 ≤ closing

instance (l : Listing α) [DecidablePred l.IsWritable] (row : Row α) :
    Decidable (row.IsWritable l) :=
  match row with
  | declaration _ _ => inferInstanceAs (Decidable (_ ∧ _))
  | heading _ _ _ => inferInstanceAs (Decidable (_ ∧ _ ∧ _))

end Row

/-- The lines of a list with its first and its last line. -/
def Listing.lines {α : Type} (l : Listing α) (rows : List (Row α)) : List String :=
  l.start :: (rows.flatMap (Row.lines l) ++ [");"])

namespace Reader

variable {state last : State} {comment : String} {i : Interface} {warnings : List String}

/-! ### Comments and rules -/

theorem feed_of_spells {line : String} {form : Line} (h : Line.Spells line form)
    (hstate : state ≠ .finished) : (Reader.mk state last comment i warnings).feed line =
      ((Reader.mk state last comment i warnings).apply (step state last form).2 line).goto
        (step state last form).1 := by
  rw [feed_eq (by rw [h.trimmed]; exact h.nonempty) hstate, h.trimmed, h.classified]

theorem feed_opening {n : Nat} (hstate : state.IsList) (hn : 4 ≤ n) :
    (Reader.mk state last comment i warnings).feed (Line.ofRule n) =
      .mk .titled state "" i warnings := by
  rcases hstate with rfl | rfl <;>
    exact feed_of_spells (Line.spells_ofRule hn) (by decide)

theorem feed_ofComment {text : String} (hstate : state.IsList ∨ state = .titled)
    (h : Line.IsCommentText text) :
    (Reader.mk state last comment i warnings).feed (Line.ofComment text) =
      .mk state last (joinComment comment text) i warnings := by
  rcases hstate with (rfl | rfl) | rfl <;>
    exact feed_of_spells (Line.spells_ofComment h) (by decide)

theorem foldl_feed_ofComment {comments : List String} (hstate : state.IsList ∨ state = .titled)
    (h : ∀ text ∈ comments, Line.IsCommentText text) :
    (comments.map Line.ofComment).foldl feed (.mk state last comment i warnings) =
      .mk state last (comments.foldl joinComment comment) i warnings := by
  induction comments generalizing comment with
  | nil => rfl
  | cons text comments ih =>
    rw [List.forall_mem_cons] at h
    rw [List.map_cons, List.foldl_cons, feed_ofComment hstate h.1, ih h.2, List.foldl_cons]

theorem foldl_joinComment {comments : List String} (hcomment : comment ≠ "")
    (h : ∀ text ∈ comments, text ≠ "") :
    comments.foldl joinComment comment = " ".intercalate (comment :: comments) := by
  induction comments generalizing comment with
  | nil => simp
  | cons text comments ih =>
    rw [List.forall_mem_cons] at h
    have hjoin : joinComment comment text = comment ++ " " ++ text := by
      simp [joinComment, hcomment, h.1]
    rw [List.foldl_cons, hjoin, ih (by simp) h.2, String.intercalate_cons_append,
      String.intercalate_cons_cons]

theorem foldl_joinComment_empty {comments : List String} (h : ∀ text ∈ comments, text ≠ "") :
    comments.foldl joinComment "" = " ".intercalate comments := by
  cases comments with
  | nil => simp
  | cons text comments =>
    rw [List.forall_mem_cons] at h
    have hjoin : joinComment "" text = text := by simp [joinComment, h.1]
    rw [List.foldl_cons, hjoin, foldl_joinComment h.1 h.2]

/-- Comment lines wait as one text. -/
theorem foldl_feed_comments {comments : List String} (hstate : state.IsList ∨ state = .titled)
    (h : ∀ text ∈ comments, Line.IsCommentText text) :
    (comments.map Line.ofComment).foldl feed (.mk state last "" i warnings) =
      .mk state last (" ".intercalate comments) i warnings := by
  rw [foldl_feed_ofComment hstate h, foldl_joinComment_empty fun text ht => (h text ht).nonempty]

/-! ### Rows -/

section

variable {α : Type} {l : Listing α}

/-- The lines of a row put its entry into the list and leave no comment behind. -/
theorem foldl_feed_row {row : Row α} (h : row.IsWritable l) :
    ∃ last', (row.lines l).foldl feed (.mk l.state last "" i warnings) =
      .mk l.state last' "" (l.append i [row.entry l]) warnings := by
  cases row with
  | declaration comments d =>
    refine ⟨last, ?_⟩
    rw [Row.lines, List.foldl_append, foldl_feed_comments (.inl l.isList) h.1, List.foldl_cons,
      List.foldl_nil, l.feed_line _ _ _ _ _ h.2, Row.entry]
  | heading opening comments closing =>
    obtain ⟨hopening, hcomments, hclosing⟩ := h
    refine ⟨.titled, ?_⟩
    rw [Row.lines, List.foldl_cons, feed_opening l.isList hopening, List.foldl_append,
      foldl_feed_comments (.inr rfl) hcomments, List.foldl_cons, List.foldl_nil,
      l.feed_closing _ _ _ _ hclosing, Row.entry]

/-- Rows are put into the list in their order. -/
theorem foldl_feed_rows {rows : List (Row α)} (h : ∀ row ∈ rows, row.IsWritable l) :
    ∃ last', (rows.flatMap (Row.lines l)).foldl feed (.mk l.state last "" i warnings) =
      .mk l.state last' "" (l.append i (rows.map (Row.entry l))) warnings := by
  induction rows generalizing last i with
  | nil => exact ⟨last, by rw [List.map_nil, l.append_nil]; rfl⟩
  | cons row rows ih =>
    rw [List.forall_mem_cons] at h
    obtain ⟨_, hrow⟩ := foldl_feed_row h.1
    obtain ⟨last', hrows⟩ := ih h.2
    refine ⟨last', ?_⟩
    rw [List.flatMap_cons, List.foldl_append, hrow, hrows, l.append_append, List.map_cons,
      List.singleton_append]

theorem feed_listEnd (hstate : state.IsList) :
    (Reader.mk state last comment i warnings).feed ");" = .mk .entity state comment i warnings := by
  rcases hstate with rfl | rfl <;>
    exact feed_of_spells Line.spells_listEnd (by decide)

theorem foldl_feed_lines {rows : List (Row α)} (h : ∀ row ∈ rows, row.IsWritable l) :
    (l.lines rows).foldl feed (.mk .entity last "" i warnings) =
      .mk .entity l.state "" (l.append i (rows.map (Row.entry l))) warnings := by
  obtain ⟨_, hrows⟩ := foldl_feed_rows h
  rw [Listing.lines, List.foldl_cons, l.feed_start, List.foldl_append, hrows, List.foldl_cons,
    List.foldl_nil, feed_listEnd l.isList]

end

end Reader

/-! ### The two lists -/

/-- A declaration is read as code. -/
theorem spells_declarationLine {name : String} (h : IsName name) (rest : String) :
    Line.Spells (declarationLine name rest) (.code (declarationLine name rest)) where
  nonempty := by rw [ne_eq, ← String.toList_inj, toList_declarationLine]; simp
  trimmed := Text.trim_eq_self_iff.2 (trimChars_declarationLine h rest)
  classified := by
    refine Line.classify_code (by simp [toList_declarationLine]) fun hdashes => ?_
    obtain ⟨d, ds, hcons⟩ := h.exists_cons
    have hname := h.noDashes
    rw [toList_declarationLine, hcons] at hdashes
    rw [hcons] at hname
    cases ds with
    | nil => simp at hdashes
    | cons e ds =>
      have hpair : '-' = d ∧ '-' = e := by simpa using hdashes
      exact (List.isChain_cons_cons.1 hname).1 ⟨hpair.1.symm, hpair.2.symm⟩

/-- The list of generics. -/
def Listing.generics : Listing Generic where
  state := .generics
  append i es := { i with generics := i.generics ++ es }
  start := "generic ("
  line := Generic.line
  IsWritable := Generic.IsWritable
  describe text g := { g with description := text }
  isList := .inl rfl
  append_nil i := by simp
  append_append i es es' := by simp
  feed_start _ _ _ _ := Reader.feed_of_spells Line.spells_genericStart (by decide)
  feed_line last comment i warnings g h := by
    have hspells : Line.Spells g.line (.code g.line) := spells_declarationLine h.name _
    rw [Reader.feed_of_spells hspells (by decide)]
    simp only [step, listStep, codeEvent, Generic.parse?_line h]
    rfl
  feed_closing comment i warnings n hn := by
    rw [Reader.feed_of_spells (Line.spells_ofRule hn) (by decide)]
    rfl

/-- The list of ports. -/
def Listing.ports : Listing Port where
  state := .ports
  append i es := { i with ports := i.ports ++ es }
  start := "port ("
  line := Port.line
  IsWritable := Port.IsWritable
  describe text p := { p with description := text }
  isList := .inr rfl
  append_nil i := by simp
  append_append i es es' := by simp
  feed_start _ _ _ _ := Reader.feed_of_spells Line.spells_portStart (by decide)
  feed_line last comment i warnings p h := by
    have hspells : Line.Spells p.line (.code p.line) := spells_declarationLine h.name _
    rw [Reader.feed_of_spells hspells (by decide)]
    simp only [step, listStep, codeEvent, Port.parse?_line h]
    rfl
  feed_closing comment i warnings n hn := by
    rw [Reader.feed_of_spells (Line.spells_ofRule hn) (by decide)]
    rfl

/-! ### Entities -/

/-- An entity with its rows as they are written. -/
structure Source where
  name : String
  generics : List (Row Generic)
  ports : List (Row Port)

namespace Source

/-- An entity that can be written: its name is one word. -/
@[mk_iff]
structure IsWritable (e : Source) : Prop where
  name_ne : e.name ≠ ""
  name_word : ∀ c ∈ e.name.toList, Text.isWordChar c
  generics : ∀ row ∈ e.generics, row.IsWritable .generics
  ports : ∀ row ∈ e.ports, row.IsWritable .ports

instance : DecidablePred Listing.generics.IsWritable :=
  inferInstanceAs (DecidablePred Generic.IsWritable)

instance : DecidablePred Listing.ports.IsWritable :=
  inferInstanceAs (DecidablePred Port.IsWritable)

instance (e : Source) : Decidable e.IsWritable := decidable_of_iff' _ (isWritable_iff e)

def lines (e : Source) : List String :=
  ("entity " ++ e.name ++ " is") ::
    (Listing.generics.lines e.generics ++ Listing.ports.lines e.ports ++ ["end entity;"])

def interface (e : Source) : Interface where
  generics := e.generics.map (Row.entry .generics)
  ports := e.ports.map (Row.entry .ports)

end Source

open Reader in
/-- A text with the lines of an entity is read to the declarations and headings of that entity,
without a warning. -/
theorem read_lines (e : Source) (h : e.IsWritable) (source : String)
    (hlines : Text.lines source = e.lines) :
    read source = { state := .finished, last := .entity, interface := e.interface } := by
  have hstart : ({} : Reader).feed ("entity " ++ e.name ++ " is") = .mk .entity .outside "" {} [] :=
    feed_of_spells (Line.spells_entityStart h.name_ne h.name_word) (by decide)
  have hend (i : Interface) : (Reader.mk .entity .ports "" i []).feed "end entity;" =
      .mk .finished .entity "" i [] :=
    feed_of_spells Line.spells_entityEnd (by decide)
  rw [read, feedUntilFinished_eq, hlines, Source.lines, List.foldl_cons, hstart, List.foldl_append,
    List.foldl_append, foldl_feed_lines h.generics, foldl_feed_lines h.ports, List.foldl_cons,
    List.foldl_nil]
  exact hend _

/-- An entity with two comment lines above a generic and a heading between two ports. -/
def sampleSource : Source where
  name := "demo"
  generics := [.declaration ["Number of words", "in the buffer"]
    { name := "DEPTH", type := "positive", default := some "16" }]
  ports := [
    .declaration [] { name := "clk", direction := "in", type := "bit" },
    .heading 4 ["Group A"] 6,
    .declaration [] { name := "data", direction := "out", type := "word (7 downto 0)" }]

theorem read_lines_sample : sampleSource.IsWritable ∧
    read (Text.unlines ["entity demo is", "generic (", "-- Number of words", "-- in the buffer",
      "DEPTH : positive := 16;", ");", "port (", "clk : in bit;", "----", "-- Group A", "------",
      "data : out word (7 downto 0);", ");", "end entity;"]) =
    { state := .finished, last := .entity
      interface := {
        generics := [.declaration { name := "DEPTH", type := "positive", default := some "16"
                                    description := "Number of words in the buffer" }]
        ports := [
          .declaration { name := "clk", direction := "in", type := "bit" },
          .heading "Group A",
          .declaration { name := "data", direction := "out", type := "word (7 downto 0)" }] } } :=
  ⟨by decide, read_lines sampleSource (by decide) _ (Text.lines_unlines (by decide))⟩

end RegAtlas.Entity
