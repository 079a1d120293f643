import Mathlib.Data.List.Induction
import RegAtlas.Entity.Reader

/-!
# Runs of the entity reader

What one line can do to the reader, and what therefore holds after any lines: a section belongs to
the list in which it was opened, entries are only appended, and nothing follows the end of an
entity.
-/

namespace RegAtlas.Entity

/-- A list of declarations is open. -/
def State.IsList (s : State) : Prop := s = .generics ∨ s = .ports

def Interface.addGeneric (i : Interface) (e : Entry Generic) : Interface :=
  { i with generics := i.generics ++ [e] }

def Interface.addPort (i : Interface) (e : Entry Port) : Interface :=
  { i with ports := i.ports ++ [e] }

namespace Reader

/-- Between two rules, the state to go back to is a list. -/
def Anchored (r : Reader) : Prop := r.state = .titled → r.last.IsList

/-- The warning about a line that is no comment between two rules. -/
def misplacedWarning (line : String) : String :=
  s!"Non-comment VHDL code in comment section, skipping: {line}"

/-- What a line does to a reader that has a list to go back to. -/
inductive Feeds (r : Reader) (line : String) : Reader → Prop where
  | nothing (h : r.state = .titled → Text.trim line = "") : Feeds r line r
  | enter (hstate : r.state = .outside) : Feeds r line { r with last := .outside, state := .entity }
  | goto (next : State) (hstate : r.state = .entity) (hnext : next.IsList ∨ next = .finished) :
      Feeds r line { r with last := .entity, state := next }
  | leave (hstate : r.state.IsList) : Feeds r line { r with last := r.state, state := .entity }
  | comment (text : String) (hstate : r.state.IsList ∨ r.state = .titled)
      (hline : Line.classify (Text.trim line) = .comment text) :
      Feeds r line { r with comment := joinComment r.comment text }
  | openSection (hstate : r.state.IsList) (hline : Line.classify (Text.trim line) = .rule) :
      Feeds r line { r with comment := "", last := r.state, state := .titled }
  | closeGenerics (hstate : r.state = .titled) (hlast : r.last = .generics)
      (hline : Line.classify (Text.trim line) = .rule) :
      Feeds r line { r with
        comment := "", last := .titled, state := .generics
        interface := r.interface.addGeneric (.heading r.comment) }
  | closePorts (hstate : r.state = .titled) (hlast : r.last = .ports)
      (hline : Line.classify (Text.trim line) = .rule) :
      Feeds r line { r with
        comment := "", last := .titled, state := .ports
        interface := r.interface.addPort (.heading r.comment) }
  | generic (g : Generic) (hstate : r.state = .generics) :
      Feeds r line { r with
        comment := ""
        interface := r.interface.addGeneric (.declaration { g with description := r.comment }) }
  | port (p : Port) (hstate : r.state = .ports) :
      Feeds r line { r with
        comment := ""
        interface := r.interface.addPort (.declaration { p with description := r.comment }) }
  | misplaced (hstate : r.state = .titled) (hline : Line.classify (Text.trim line) ≠ .rule) :
      Feeds r line { r with warnings := r.warnings ++ [misplacedWarning (Text.trim line)] }

variable {r r' : Reader} {line : String}

theorem feed_of_finished (h : r.state = .finished) (line : String) : r.feed line = r := by
  simp [feed, h]

theorem feed_of_blank (h : Text.trim line = "") : r.feed line = r := by
  simp [feed, h]

/-- A line that counts is classified. -/
theorem feed_eq (hblank : Text.trim line ≠ "") (hfinished : r.state ≠ .finished) : r.feed line =
    (r.apply (step r.state r.last (Line.classify (Text.trim line))).2 (Text.trim line)).goto
      (step r.state r.last (Line.classify (Text.trim line))).1 := by
  simp [feed, hblank, hfinished]

theorem feeds_feed (h : r.Anchored) (line : String) : Feeds r line (r.feed line) := by
  by_cases hblank : Text.trim line = ""
  · rw [feed_of_blank hblank]
    exact .nothing fun _ => hblank
  by_cases hfinished : r.state = .finished
  · rw [feed_of_finished hfinished]
    exact .nothing fun h => by simp [hfinished] at h
  rw [feed_eq hblank hfinished]
  obtain ⟨state, last, comment, interface, warnings⟩ := r
  -- With the state and the line known, a step computes to what the case says.
  cases state with
  | finished => exact absurd rfl hfinished
  | outside =>
    cases Line.classify (Text.trim line) with
    | entityStart => exact .enter rfl
    | _ => exact .nothing nofun
  | entity =>
    cases Line.classify (Text.trim line) with
    | genericStart => exact .goto .generics rfl (.inl (.inl rfl))
    | portStart => exact .goto .ports rfl (.inl (.inr rfl))
    | entityEnd => exact .goto .finished rfl (.inr rfl)
    | _ => exact .nothing nofun
  | generics =>
    cases hline : Line.classify (Text.trim line) with
    | rule => exact .openSection (.inl rfl) hline
    | comment text => exact .comment text (.inl (.inl rfl)) hline
    | listEnd => exact .leave (.inl rfl)
    | code code =>
      rw [step, listStep, codeEvent]
      cases Generic.parse? code with
      | none => exact .nothing nofun
      | some g => exact .generic g rfl
    | _ => exact .nothing nofun
  | ports =>
    cases hline : Line.classify (Text.trim line) with
    | rule => exact .openSection (.inr rfl) hline
    | comment text => exact .comment text (.inl (.inr rfl)) hline
    | listEnd => exact .leave (.inr rfl)
    | code code =>
      rw [step, listStep, codeEvent]
      cases Port.parse? code with
      | none => exact .nothing nofun
      | some p => exact .port p rfl
    | _ => exact .nothing nofun
  | titled =>
    cases hline : Line.classify (Text.trim line) with
    | rule =>
      rcases h rfl with hlast | hlast
      · cases hlast
        exact .closeGenerics rfl rfl hline
      · cases hlast
        exact .closePorts rfl rfl hline
    | comment text => exact .comment text (.inr rfl) hline
    | _ => exact .misplaced rfl (by simp [hline])

/-! ### Sections -/

theorem not_titled_of_isList {s : State} (h : s.IsList) : s ≠ .titled := by
  rcases h with rfl | rfl <;> decide

theorem Feeds.anchored (hf : Feeds r line r') (h : r.Anchored) : r'.Anchored := by
  intro htitled
  cases hf with
  | nothing => exact h htitled
  | enter => cases htitled
  | goto next _ hnext =>
    rcases hnext with hnext | hnext
    · exact absurd htitled (not_titled_of_isList hnext)
    · exact absurd (hnext.symm.trans htitled) (by decide)
  | leave => cases htitled
  | comment => exact h htitled
  | openSection hstate => exact hstate
  | closeGenerics => cases htitled
  | closePorts => cases htitled
  | generic g hstate => exact absurd (hstate.symm.trans htitled) (by decide)
  | port p hstate => exact absurd (hstate.symm.trans htitled) (by decide)
  | misplaced => exact h htitled

/-- A line that leaves the reader between two rules opened the section, or leaves the list to go
back to as it is. -/
theorem Feeds.titled (hf : Feeds r line r') (h : r'.state = .titled) :
    (r.state.IsList ∧ Line.classify (Text.trim line) = .rule ∧ r'.last = r.state) ∨
      (r.state = .titled ∧ r'.last = r.last) := by
  cases hf with
  | nothing => exact .inr ⟨h, rfl⟩
  | enter => cases h
  | goto next _ hnext =>
    rcases hnext with hnext | hnext
    · exact absurd h (not_titled_of_isList hnext)
    · exact absurd (hnext.symm.trans h) (by decide)
  | leave => cases h
  | comment => exact .inr ⟨h, rfl⟩
  | openSection hstate hline => exact .inl ⟨hstate, hline, rfl⟩
  | closeGenerics => cases h
  | closePorts => cases h
  | generic => exact .inr ⟨h, rfl⟩
  | port => exact .inr ⟨h, rfl⟩
  | misplaced => exact .inr ⟨h, rfl⟩

/-- A rule between two rules goes back to the list and adds the heading there. -/
theorem Feeds.closes (hf : Feeds r line r') (hstate : r.state = .titled)
    (hline : Line.classify (Text.trim line) = .rule) : r'.state = r.last ∧
      (r.last = .generics ∧ r'.interface = r.interface.addGeneric (.heading r.comment) ∨
        r.last = .ports ∧ r'.interface = r.interface.addPort (.heading r.comment)) := by
  cases hf with
  | nothing hblank =>
    rw [hblank hstate] at hline
    exact absurd hline (by decide)
  | closeGenerics _ hlast => exact ⟨hlast.symm, .inl ⟨hlast, rfl⟩⟩
  | closePorts _ hlast => exact ⟨hlast.symm, .inr ⟨hlast, rfl⟩⟩
  | comment _ _ hcomment => exact absurd (hline.symm.trans hcomment) (by simp)
  | misplaced _ hnot => exact absurd hline hnot
  | openSection hlist | leave hlist => exact absurd hstate (not_titled_of_isList hlist)
  | enter h | goto _ h | generic _ h | port _ h => exact absurd (h.symm.trans hstate) (by decide)

/-! ### Entries and warnings -/

/-- What one line may add to an interface: nothing, or one entry at the end of one list. -/
inductive Addition (r : Reader) (line : String) : Interface → Prop where
  | nothing : Addition r line r.interface
  | generic (g : Generic) (hstate : r.state = .generics) :
      Addition r line (r.interface.addGeneric (.declaration g))
  | port (p : Port) (hstate : r.state = .ports) :
      Addition r line (r.interface.addPort (.declaration p))
  | genericHeading (hstate : r.state = .titled) (hlast : r.last = .generics)
      (hline : Line.classify (Text.trim line) = .rule) :
      Addition r line (r.interface.addGeneric (.heading r.comment))
  | portHeading (hstate : r.state = .titled) (hlast : r.last = .ports)
      (hline : Line.classify (Text.trim line) = .rule) :
      Addition r line (r.interface.addPort (.heading r.comment))

theorem Feeds.addition (hf : Feeds r line r') : Addition r line r'.interface := by
  cases hf with
  | closeGenerics hstate hlast hline => exact .genericHeading hstate hlast hline
  | closePorts hstate hlast hline => exact .portHeading hstate hlast hline
  | generic g hstate => exact .generic _ hstate
  | port p hstate => exact .port _ hstate
  | _ => exact .nothing

theorem Feeds.warnings (hf : Feeds r line r') : r'.warnings = r.warnings ∨
    r'.warnings = r.warnings ++ [misplacedWarning (Text.trim line)] := by
  cases hf with
  | misplaced => exact .inr rfl
  | _ => exact .inl rfl

/-! ### Runs -/

/-- The reader after lines. -/
def run (lines : List String) : Reader := lines.foldl feed {}

@[simp] theorem run_concat (lines : List String) (line : String) :
    run (lines ++ [line]) = (run lines).feed line := by
  simp [run]

theorem anchored_run (lines : List String) : (run lines).Anchored := by
  induction lines using List.reverseRecOn with
  | nil => exact nofun
  | append_singleton lines line ih =>
    rw [run_concat]
    exact (feeds_feed ih line).anchored ih

theorem feeds_run (lines : List String) (line : String) :
    Feeds (run lines) line ((run lines).feed line) := feeds_feed (anchored_run lines) line

/-- The reader went between two rules with the first line behind `before` and has not left it since.
What it goes back to is the list that was open. -/
structure Within (lines before : List String) (opening : String) (inside : List String) : Prop where
  lines_eq : lines = before ++ opening :: inside
  isRule : Line.classify (Text.trim opening) = .rule
  isList : (run before).state.IsList
  stays : ∀ read, read <+: inside → (run (before ++ opening :: read)).state = .titled ∧
    (run (before ++ opening :: read)).last = (run before).state

theorem exists_within {lines : List String} (h : (run lines).state = .titled) :
    ∃ before opening inside, Within lines before opening inside := by
  induction lines using List.reverseRecOn with
  | nil => cases h
  | append_singleton lines line ih =>
    rw [run_concat] at h
    rcases (feeds_run lines line).titled h with ⟨hlist, hline, hlast⟩ | ⟨htitled, hlast⟩
    · refine ⟨lines, line, [], rfl, hline, hlist, fun read hread => ?_⟩
      rw [List.prefix_nil.1 hread, run_concat]
      exact ⟨h, hlast⟩
    · obtain ⟨before, opening, inside, rfl, hrule, hlist, hstays⟩ := ih htitled
      refine ⟨before, opening, inside ++ [line], by simp, hrule, hlist, fun read hread => ?_⟩
      rcases List.prefix_concat_iff.1 hread with rfl | hread
      · have hinside := hstays inside (List.prefix_refl _)
        rw [← List.cons_append, ← List.append_assoc, run_concat]
        exact ⟨h, hlast.trans hinside.2⟩
      · exact hstays read hread

theorem mem_warnings_run {lines : List String} {w : String} (h : w ∈ (run lines).warnings) :
    ∃ line ∈ lines, w = misplacedWarning (Text.trim line) := by
  induction lines using List.reverseRecOn with
  | nil => cases h
  | append_singleton lines line ih =>
    rw [run_concat] at h
    rcases (feeds_run lines line).warnings with hw | hw
    · obtain ⟨line', hmem, heq⟩ := ih (hw ▸ h)
      exact ⟨line', List.mem_append_left _ hmem, heq⟩
    · rcases List.mem_append.1 (hw ▸ h) with h | h
      · obtain ⟨line', hmem, heq⟩ := ih h
        exact ⟨line', List.mem_append_left _ hmem, heq⟩
      · exact ⟨line, by simp, List.mem_singleton.1 h⟩

theorem foldl_feed_of_finished {r : Reader} (h : r.state = .finished) (lines : List String) :
    lines.foldl feed r = r := by
  induction lines with
  | nil => rfl
  | cons line lines ih => rw [List.foldl_cons, feed_of_finished h, ih]

/-- Reading up to the end of the entity is reading everything. -/
theorem feedUntilFinished_eq (r : Reader) (lines : List String) :
    r.feedUntilFinished lines = lines.foldl feed r := by
  induction lines generalizing r with
  | nil => rfl
  | cons line lines ih =>
    rw [feedUntilFinished, List.foldl_cons]
    split_ifs with h
    · rw [foldl_feed_of_finished h]
    · exact ih _

theorem head?_misplacedWarning (line : String) :
    (misplacedWarning line).toList.head? = some 'N' := by
  unfold misplacedWarning
  rw [String.toList_append]
  rfl

theorem misplacedWarning_ne (line : String) (s : State) :
    misplacedWarning line ≠ s!"Section ended in unexpected state {s.text}" := by
  intro h
  have hhead : s!"Section ended in unexpected state {s.text}".toList.head? = some 'S' := by
    rw [String.toList_append]
    rfl
  rw [← h, head?_misplacedWarning] at hhead
  exact absurd hhead (by decide)

/-- What holds after any lines. Between two rules the reader remembers the list in which the section
was opened, and the next rule adds the heading to that list and goes back to it; no section ends
anywhere else. A line adds at most one entry, at the end of one list, and only in a list or with the
rule that closes a section. Nothing changes behind the end of the entity. -/
theorem run_invariant (lines : List String) :
    ((run lines).state = .titled →
      (∃ before opening inside, Within lines before opening inside) ∧
      ∀ line, Line.classify (Text.trim line) = .rule →
        (run (lines ++ [line])).state = (run lines).last ∧
        ((run lines).last = .generics ∧ (run (lines ++ [line])).interface =
            (run lines).interface.addGeneric (.heading (run lines).comment) ∨
          (run lines).last = .ports ∧ (run (lines ++ [line])).interface =
            (run lines).interface.addPort (.heading (run lines).comment))) ∧
    (∀ w ∈ (run lines).warnings, (∃ line ∈ lines, w = misplacedWarning (Text.trim line)) ∧
      ∀ s : State, w ≠ s!"Section ended in unexpected state {s.text}") ∧
    (∀ line, Addition (run lines) line (run (lines ++ [line])).interface) ∧
    ((run lines).state = .finished → ∀ more, run (lines ++ more) = run lines) ∧
    feedUntilFinished {} lines = run lines := by
  refine ⟨fun h => ⟨exists_within h, fun line hline => ?_⟩, fun w hw => ?_, fun line => ?_,
    fun h more => ?_, feedUntilFinished_eq _ _⟩
  · rw [run_concat]
    exact (feeds_run lines line).closes h hline
  · obtain ⟨line, hmem, rfl⟩ := mem_warnings_run hw
    exact ⟨⟨line, hmem, rfl⟩, misplacedWarning_ne _⟩
  · rw [run_concat]
    exact (feeds_run lines line).addition
  · rw [run, List.foldl_append]
    exact foldl_feed_of_finished h more

/-- Lines that stop between two rules in the list of ports. -/
def sectionLines : List String :=
  ["entity demo is", "port (", "a : in bit;", "----", "-- Group A"]

theorem run_invariant_section : (run sectionLines).state = .titled ∧
    (run (sectionLines ++ ["------"])).state = .ports ∧
    (run (sectionLines ++ ["------"])).interface =
      (run sectionLines).interface.addPort (.heading "Group A") := by
  have htitled : (run sectionLines).state = .titled := by decide
  have hlast : (run sectionLines).last = .ports := by decide
  have hcomment : (run sectionLines).comment = "Group A" := by decide
  obtain ⟨hstate, hinterface⟩ := ((run_invariant sectionLines).1 htitled).2 "------" (by decide)
  rw [hlast] at hstate hinterface
  refine ⟨htitled, hstate, ?_⟩
  rcases hinterface with ⟨hgenerics, -⟩ | ⟨-, hports⟩
  · cases hgenerics
  · rw [hports, hcomment]

end Reader

end RegAtlas.Entity
