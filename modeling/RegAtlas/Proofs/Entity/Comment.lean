import Mathlib.Data.List.Flatten
import RegAtlas.Proofs.Entity.Run

/-!
# Comments that wait

The reader joins the comments that it hears. What waits for a declaration is what was heard since
the last entry of either list.
-/

namespace RegAtlas.Entity

instance (s : State) : Decidable s.IsList := inferInstanceAs (Decidable (_ ∨ _))

theorem Interface.addGeneric_ne (i : Interface) (e : Entry Generic) : i.addGeneric e ≠ i := by
  intro h
  simpa [addGeneric] using congrArg generics h

theorem Interface.addPort_ne (i : Interface) (e : Entry Port) : i.addPort e ≠ i := by
  intro h
  simpa [addPort] using congrArg ports h

namespace Reader

/-! ### Comments as one text -/

/-- Comments as one text: those that are not empty, with blanks between them. -/
def joined (texts : List String) : String := " ".intercalate (texts.filter (· ≠ ""))

theorem joinComment_joined (texts : List String) (text : String) :
    joinComment (joined texts) text = joined (texts ++ [text]) := by
  by_cases htext : text = ""
  · simp [joinComment, joined, htext]
  have hfilter : (texts ++ [text]).filter (· ≠ "") = texts.filter (· ≠ "") ++ [text] := by
    simp [htext]
  rw [joined, joined, hfilter]
  cases hshown : texts.filter (· ≠ "") with
  | nil => simp [joinComment, htext]
  | cons shown others =>
    have hne : shown ≠ "" := by
      have hmem : shown ∈ texts.filter (· ≠ "") := hshown ▸ List.mem_cons_self
      simpa using (List.mem_filter.1 hmem).2
    have hwaiting : " ".intercalate (shown :: others) ≠ "" := by
      cases others <;> simp [String.intercalate_cons_cons, hne]
    rw [String.intercalate_append_of_ne_nil (by simp) (by simp)]
    simp [joinComment, htext, hwaiting]

theorem foldl_joinComment_joined (texts more : List String) :
    more.foldl joinComment (joined texts) = joined (texts ++ more) := by
  induction more generalizing texts with
  | nil => simp
  | cons text more ih =>
    rw [List.foldl_cons, joinComment_joined, ih, List.append_assoc, List.singleton_append]

/-- The number of characters of comments that are not empty, with a blank for each comment. -/
def extent (texts : List String) : Nat :=
  ((texts.filter (· ≠ "")).flatMap fun text => ' ' :: text.toList).length

theorem length_joined (texts : List String) : (joined texts).length = extent texts - 1 := by
  rw [joined, extent]
  induction texts.filter (· ≠ "") with
  | nil => rfl
  | cons text texts ih =>
    cases texts with
    | nil => simp [String.length_toList]
    | cons next texts =>
      have hblank : " ".length = 1 := by decide
      rw [String.intercalate_cons_cons, String.length_append, String.length_append, ih, hblank]
      simp only [List.flatMap_cons, List.length_append, List.length_cons, String.length_toList]
      omega

theorem extent_append (texts more : List String) :
    extent (texts ++ more) = extent texts + extent more := by
  simp [extent]

theorem extent_le_of_sublist {part texts : List String} (h : part.Sublist texts) :
    extent part ≤ extent texts :=
  ((h.filter _).flatMap _).length_le

theorem two_le_extent {texts : List String} {text : String} (hmem : text ∈ texts)
    (htext : text ≠ "") : 2 ≤ extent texts := by
  have hlength : text.length ≠ 0 := by simpa using htext
  have hone : extent [text] = text.length + 1 := by simp [extent, htext, String.length_toList]
  have hle := extent_le_of_sublist (List.singleton_sublist.2 hmem)
  omega

/-- A description is made of some of the comments, in their order. -/
def MadeOf (description : String) (texts : List String) : Prop :=
  ∃ part, part.Sublist texts ∧ description = joined part

/-- A text in front is seen in the description, unless it is empty. -/
theorem madeOf_joined_append_iff (front texts : List String) :
    MadeOf (joined (front ++ texts)) texts ↔ ∀ text ∈ front, text = "" := by
  constructor
  · rintro ⟨part, hpart, heq⟩ text hmem
    by_contra htext
    have hlength := congrArg String.length heq
    rw [length_joined, length_joined, extent_append] at hlength
    have hfront := two_le_extent hmem htext
    have hle := extent_le_of_sublist hpart
    omega
  · intro h
    refine ⟨texts, .refl _, ?_⟩
    have hfront : front.filter (· ≠ "") = [] := by simpa using h
    rw [joined, joined, List.filter_append, hfront, List.nil_append]

/-! ### Comments that are heard -/

/-- The text of a comment line. -/
def commentText? (line : String) : Option String :=
  match Line.classify (Text.trim line) with
  | .comment text => some text
  | _ => none

/-- The comments that a reader hears while it takes lines: those in a list or between two rules. -/
def heard (r : Reader) : List String → List String
  | [] => []
  | line :: lines =>
    (if r.state.IsList ∨ r.state = .titled then (commentText? line).toList else []) ++
      heard (r.feed line) lines

theorem heard_append (r : Reader) (lines more : List String) :
    r.heard (lines ++ more) = r.heard lines ++ (lines.foldl feed r).heard more := by
  induction lines generalizing r with
  | nil => rfl
  | cons line lines ih => simp [heard, ih]

theorem run_append (lines more : List String) :
    run (lines ++ more) = more.foldl feed (run lines) := by
  simp [run]

section

variable {r r' : Reader} {line text : String} {head tail : List String}

theorem commentText?_eq_some_iff :
    commentText? line = some text ↔ Line.classify (Text.trim line) = .comment text := by
  unfold commentText?
  split <;> simp_all

theorem feed_of_comment (hstate : r.state.IsList ∨ r.state = .titled)
    (hline : commentText? line = some text) :
    r.feed line = { r with comment := joinComment r.comment text } := by
  rw [commentText?_eq_some_iff] at hline
  have hblank : Text.trim line ≠ "" := by
    intro h
    have hempty : Line.classify "" = .code "" := by decide
    rw [h, hempty] at hline
    cases hline
  obtain ⟨state, last, comment, interface, warnings⟩ := r
  rcases hstate with (rfl | rfl) | rfl
  all_goals
    rw [feed_eq hblank (by simp), hline]
    rfl

/-- A line that adds an entry leaves no comment behind. -/
theorem Feeds.of_entry (hf : Feeds r line r') (h : r'.interface ≠ r.interface) :
    r'.comment = "" ∧ r'.state.IsList := by
  cases hf with
  | closeGenerics => exact ⟨rfl, .inl rfl⟩
  | closePorts => exact ⟨rfl, .inr rfl⟩
  | generic g hstate => exact ⟨rfl, .inl hstate⟩
  | port p hstate => exact ⟨rfl, .inr hstate⟩
  | _ => exact absurd rfl h

/-- A line that is not heard leaves the comment, unless it adds an entry or opens a section. -/
theorem Feeds.comment_eq (hf : Feeds r line r')
    (hsilent : (r.state.IsList ∨ r.state = .titled) → commentText? line = none)
    (hentry : r'.interface = r.interface) (hstate : r'.state ≠ .titled) :
    r'.comment = r.comment := by
  cases hf with
  | comment text hlist hline =>
    have hnone := hsilent hlist
    rw [commentText?_eq_some_iff.2 hline] at hnone
    cases hnone
  | openSection => exact absurd rfl hstate
  | closeGenerics | generic => exact absurd hentry (Interface.addGeneric_ne _ _)
  | closePorts | port => exact absurd hentry (Interface.addPort_ne _ _)
  | _ => rfl

/-- A section ends with an entry. -/
theorem Feeds.stays_titled (hf : Feeds r line r') (h : r.state = .titled)
    (hentry : r'.interface = r.interface) : r'.state = .titled := by
  cases hf with
  | nothing | comment | misplaced => exact h
  | closeGenerics => exact absurd hentry (Interface.addGeneric_ne _ _)
  | closePorts => exact absurd hentry (Interface.addPort_ne _ _)
  | openSection hlist | leave hlist => exact absurd h (not_titled_of_isList hlist)
  | enter hstate | goto _ hstate | generic _ hstate | port _ hstate =>
    exact absurd (hstate.symm.trans h) (by decide)

theorem comment_feed (hr : r.Anchored) (hentry : (r.feed line).interface = r.interface)
    (hstate : (r.feed line).state ≠ .titled) :
    (r.feed line).comment = (r.heard [line]).foldl joinComment r.comment := by
  by_cases hheard : ∃ text, (r.state.IsList ∨ r.state = .titled) ∧ commentText? line = some text
  · obtain ⟨text, hlist, htext⟩ := hheard
    rw [feed_of_comment hlist htext, heard, if_pos hlist, htext]
    rfl
  have hsilent : (r.state.IsList ∨ r.state = .titled) → commentText? line = none := by
    intro hlist
    by_contra hsome
    obtain ⟨text, htext⟩ := Option.ne_none_iff_exists'.1 hsome
    exact hheard ⟨text, hlist, htext⟩
  have hnone : r.heard [line] = [] := by
    rw [heard, heard, List.append_nil]
    split_ifs with hlist
    · rw [hsilent hlist]
      rfl
    · rfl
  rw [hnone, (feeds_feed hr line).comment_eq hsilent hentry hstate]
  rfl

/-! ### Since the last entry -/

/-- Nothing has been read, or the last line added an entry to one of the lists. -/
def AtEntry (head : List String) : Prop :=
  head = [] ∨ ∃ lines line, head = lines ++ [line] ∧ (run head).interface ≠ (run lines).interface

/-- The lines of `tail` behind `head` add no entry, and no section is open in them. -/
def Quiet (head tail : List String) : Prop :=
  ∀ read, read <+: tail →
    (run (head ++ read)).interface = (run head).interface ∧ (run (head ++ read)).state ≠ .titled

theorem Quiet.left {more : List String} (h : Quiet head (tail ++ more)) : Quiet head tail :=
  fun read hread => h read (hread.trans (List.prefix_append _ _))

theorem Quiet.concat (h : Quiet head tail)
    (hentry : (run (head ++ tail ++ [line])).interface = (run (head ++ tail)).interface)
    (hstate : (run (head ++ tail ++ [line])).state ≠ .titled) : Quiet head (tail ++ [line]) := by
  intro read hread
  rcases List.prefix_concat_iff.1 hread with rfl | hread
  · rw [← List.append_assoc]
    exact ⟨hentry.trans (h tail (List.prefix_refl _)).1, hstate⟩
  · exact h read hread

theorem AtEntry.comment_eq (h : AtEntry head) : (run head).comment = "" := by
  rcases h with rfl | ⟨lines, line, rfl, hentry⟩
  · rfl
  · rw [run_concat] at hentry ⊢
    exact ((feeds_run lines line).of_entry hentry).1

/-- What waits is what was heard since the last entry. -/
theorem comment_run (hhead : AtEntry head) (h : Quiet head tail) :
    (run (head ++ tail)).comment = joined ((run head).heard tail) := by
  induction tail using List.reverseRecOn with
  | nil => rw [List.append_nil, hhead.comment_eq]; rfl
  | append_singleton tail line ih =>
    obtain ⟨hentry, hstate⟩ := h _ (List.prefix_refl _)
    have htail := (h tail (List.prefix_append _ _)).1
    rw [← List.append_assoc, run_concat] at hentry hstate ⊢
    rw [comment_feed (anchored_run _) (hentry.trans htail.symm) hstate, ih h.left,
      foldl_joinComment_joined, heard_append, ← run_append]

/-- Lines that end outside of a section are quiet since the last entry. -/
theorem exists_quiet {lines : List String} (h : (run lines).state ≠ .titled) :
    ∃ head tail, lines = head ++ tail ∧ AtEntry head ∧ Quiet head tail := by
  induction lines using List.reverseRecOn with
  | nil =>
    refine ⟨[], [], rfl, .inl rfl, fun read hread => ?_⟩
    rw [List.prefix_nil.1 hread]
    exact ⟨rfl, by decide⟩
  | append_singleton lines line ih =>
    by_cases hentry : (run (lines ++ [line])).interface = (run lines).interface
    · have hbefore : (run lines).state ≠ .titled := by
        intro htitled
        rw [run_concat] at h hentry
        exact h ((feeds_run lines line).stays_titled htitled hentry)
      obtain ⟨head, tail, rfl, hhead, hquiet⟩ := ih hbefore
      exact ⟨head, tail ++ [line], by simp, hhead, hquiet.concat hentry h⟩
    · refine ⟨lines ++ [line], [], by simp, .inr ⟨lines, line, rfl, hentry⟩, fun read hread => ?_⟩
      rw [List.prefix_nil.1 hread, List.append_nil]
      exact ⟨rfl, h⟩

end

end Reader

end RegAtlas.Entity
