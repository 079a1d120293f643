import RegAtlas.Proofs.Entity.Comment

/-!
# Descriptions of declarations

Where the comments in a description stand: behind the first line of the list of the declaration or
behind its last entry, after those that lists closed since the last entry have left over.
-/

namespace RegAtlas.Entity

namespace Reader

/-! ### Places of declarations -/

/-- The lines read when a list is open, cut at the last entry of either list and at the first line
of the list, if that is behind the entry. -/
structure IsCut (list : State) (head earlier own : List String) : Prop where
  atEntry : AtEntry head
  quiet : Quiet head (earlier ++ own)
  opens : earlier = [] ∨
    ∃ before first, earlier = before ++ [first] ∧ (run (head ++ before)).state = .entity
  inside : ∀ read, read <+: own → (run (head ++ earlier ++ read)).state = list

section

variable {r r' : Reader} {line : String} {list : State} {head earlier own : List String}

/-- A list is entered by its first line or with an entry. -/
theorem Feeds.entity_of_enters (hf : Feeds r line r') (hlist : r'.state.IsList)
    (hentry : r'.interface = r.interface) (hne : r.state ≠ r'.state) : r.state = .entity := by
  cases hf with
  | goto _ hstate => exact hstate
  | closeGenerics | generic => exact absurd hentry (Interface.addGeneric_ne _ _)
  | closePorts | port => exact absurd hentry (Interface.addPort_ne _ _)
  | enter | leave | openSection => simp [State.IsList] at hlist
  | nothing | comment | misplaced => exact absurd rfl hne

theorem IsCut.concat (h : IsCut list head earlier own) (hlist : list.IsList)
    (hentry : (run (head ++ earlier ++ own ++ [line])).interface =
      (run (head ++ earlier ++ own)).interface)
    (hstate : (run (head ++ earlier ++ own ++ [line])).state = list) :
    IsCut list head earlier (own ++ [line]) where
  atEntry := h.atEntry
  quiet := by
    rw [← List.append_assoc]
    refine h.quiet.concat ?_ ?_
    · rw [← List.append_assoc, hentry]
    · rw [← List.append_assoc, hstate]
      exact not_titled_of_isList hlist
  opens := h.opens
  inside := by
    intro read hread
    rcases List.prefix_concat_iff.1 hread with rfl | hread
    · rw [← List.append_assoc]
      exact hstate
    · exact h.inside read hread

/-- Behind an entry of the list, nothing is left over. -/
theorem isCut_nil (hlist : list.IsList) (hhead : AtEntry head) (h : (run head).state = list) :
    IsCut list head [] [] where
  atEntry := hhead
  quiet read hread := by
    rw [List.prefix_nil.1 hread, List.append_nil, h]
    exact ⟨rfl, not_titled_of_isList hlist⟩
  opens := .inl rfl
  inside read hread := by rw [List.prefix_nil.1 hread, List.append_nil, List.append_nil, h]

theorem isCut_first {tail : List String} (hlist : list.IsList) (hhead : AtEntry head)
    (hquiet : Quiet head tail) (hstate : (run (head ++ tail)).state = .entity)
    (hentry : (run (head ++ tail ++ [line])).interface = (run (head ++ tail)).interface)
    (h : (run (head ++ tail ++ [line])).state = list) : IsCut list head (tail ++ [line]) [] where
  atEntry := hhead
  quiet := by
    rw [List.append_nil]
    refine hquiet.concat hentry ?_
    rw [h]
    exact not_titled_of_isList hlist
  opens := .inr ⟨tail, line, rfl, hstate⟩
  inside read hread := by
    rw [List.prefix_nil.1 hread, List.append_nil, ← List.append_assoc, h]

theorem exists_isCut {lines : List String} (hlist : list.IsList) (h : (run lines).state = list) :
    ∃ head earlier own, lines = head ++ earlier ++ own ∧ IsCut list head earlier own := by
  induction lines using List.reverseRecOn with
  | nil =>
    subst h
    exact absurd hlist (by decide)
  | append_singleton lines line ih =>
    by_cases hentry : (run (lines ++ [line])).interface = (run lines).interface
    · by_cases hbefore : (run lines).state = list
      · obtain ⟨head, earlier, own, rfl, hcut⟩ := ih hbefore
        exact ⟨head, earlier, own ++ [line], by simp, hcut.concat hlist hentry h⟩
      · have hentity : (run lines).state = .entity := by
          subst h
          rw [run_concat] at hentry hlist hbefore
          exact (feeds_run lines line).entity_of_enters hlist hentry hbefore
        obtain ⟨head, tail, rfl, hhead, hquiet⟩ := exists_quiet (by rw [hentity]; decide)
        exact ⟨head, tail ++ [line], [], by simp, isCut_first hlist hhead hquiet hentity hentry h⟩
    · exact ⟨lines ++ [line], [], [], by simp, isCut_nil hlist (.inr ⟨lines, line, rfl, hentry⟩) h⟩

/-- All lines of a list are heard. -/
theorem heard_of_inside (h : ∀ read, read <+: own → (read.foldl feed r).state.IsList) :
    r.heard own = own.filterMap commentText? := by
  induction own generalizing r with
  | nil => rfl
  | cons line own ih =>
    have hlist : r.state.IsList := h [] List.nil_prefix
    have hrest : (r.feed line).heard own = own.filterMap commentText? := by
      refine ih fun read hread => ?_
      rw [← List.foldl_cons]
      exact h (line :: read) (by simpa using hread)
    rw [heard, if_pos (.inl hlist), hrest, List.filterMap_cons]
    cases commentText? line <;> rfl

end

/-- A line of a list. -/
structure Place (lines : List String) (list : State) where
  /-- The lines up to the last entry of either list. -/
  head : List String
  /-- From there to the first line of the list, if no entry of the list is before the line. -/
  earlier : List String
  /-- The lines of the list behind its first line or its last entry. -/
  own : List String
  line : String
  rest : List String
  lines_eq : lines = head ++ earlier ++ own ++ line :: rest
  isList : list.IsList
  isCut : IsCut list head earlier own

namespace Place

variable {lines : List String} {list : State} (p : Place lines list)

/-- The reader that takes the line. -/
def reader : Reader := run (p.head ++ p.earlier ++ p.own)

/-- The comments of the list behind its first line or its last entry. -/
def comments : List String := p.own.filterMap commentText?

/-- The comments that the lists before this one have left over. -/
def leftover : List String := (run p.head).heard p.earlier

/-- What waits for a declaration is left over or stands in its own list. -/
theorem comment_eq : p.reader.comment = joined (p.leftover ++ p.comments) := by
  have hown : ∀ read, read <+: p.own →
      (read.foldl feed (run (p.head ++ p.earlier))).state.IsList := by
    intro read hread
    rw [← run_append, p.isCut.inside read hread]
    exact p.isList
  rw [reader, List.append_assoc, comment_run p.isCut.atEntry p.isCut.quiet, heard_append,
    ← run_append, heard_of_inside hown]
  rfl

end Place

theorem exists_place {lines before rest : List String} {line : String} {list : State}
    (heq : lines = before ++ line :: rest) (hlist : list.IsList)
    (h : (run before).state = list) :
    ∃ p : Place lines list, p.reader = run before ∧ p.line = line := by
  obtain ⟨head, earlier, own, rfl, hcut⟩ := exists_isCut hlist h
  exact ⟨⟨head, earlier, own, line, rest, heq, hlist, hcut⟩, rfl, rfl⟩

/-! ### The declarations of an interface -/

/-- Every entry of a list that only grows at its end was put there by a line. -/
theorem exists_line {α : Type} {entries : Interface → List α} (hnil : entries {} = [])
    (hfeed : ∀ lines line,
      entries (run (lines ++ [line])).interface = entries (run lines).interface ∨
      ∃ e, entries (run (lines ++ [line])).interface = entries (run lines).interface ++ [e])
    {lines : List String} {before after : List α} {e : α}
    (h : entries (run lines).interface = before ++ e :: after) :
    ∃ read line rest, lines = read ++ line :: rest ∧ entries (run read).interface = before ∧
      entries (run (read ++ [line])).interface = before ++ [e] := by
  induction lines using List.reverseRecOn generalizing after with
  | nil =>
    have hempty : entries {} = before ++ e :: after := h
    simp [hnil] at hempty
  | append_singleton lines line ih =>
    have hlater : (∃ after, entries (run lines).interface = before ++ e :: after) →
        ∃ read line' rest, lines ++ [line] = read ++ line' :: rest ∧
          entries (run read).interface = before ∧
          entries (run (read ++ [line'])).interface = before ++ [e] := by
      rintro ⟨after, hafter⟩
      obtain ⟨read, line', rest, rfl, hread⟩ := ih hafter
      exact ⟨read, line', rest ++ [line], by simp, hread⟩
    rcases hfeed lines line with hsame | ⟨last, hlast⟩
    · exact hlater ⟨after, hsame.symm.trans h⟩
    · rcases List.eq_nil_or_concat after with rfl | ⟨after, other, rfl⟩
      · have hsplit := hlast.symm.trans h
        obtain ⟨hbefore, htail⟩ := List.append_inj' hsplit rfl
        exact ⟨lines, line, [], rfl, hbefore, h⟩
      · refine hlater ⟨after, ?_⟩
        have hsplit := hlast.symm.trans h
        rw [List.concat_eq_append, ← List.cons_append, ← List.append_assoc] at hsplit
        exact (List.append_inj' hsplit rfl).1

section

variable {r r' : Reader} {line : String}

/-- What a line may do to the list of generics. -/
theorem Feeds.generics (hf : Feeds r line r') : r'.interface.generics = r.interface.generics ∨
    ∃ e, r'.interface.generics = r.interface.generics ++ [e] ∧
      ∀ g, e = .declaration g → r.state = .generics ∧ g.description = r.comment := by
  cases hf with
  | closeGenerics => exact .inr ⟨_, rfl, nofun⟩
  | generic g hstate =>
    refine .inr ⟨_, rfl, ?_⟩
    rintro _ ⟨rfl⟩
    exact ⟨hstate, rfl⟩
  | _ => exact .inl rfl

/-- What a line may do to the list of ports. -/
theorem Feeds.ports (hf : Feeds r line r') : r'.interface.ports = r.interface.ports ∨
    ∃ e, r'.interface.ports = r.interface.ports ++ [e] ∧
      ∀ p, e = .declaration p → r.state = .ports ∧ p.description = r.comment := by
  cases hf with
  | closePorts => exact .inr ⟨_, rfl, nofun⟩
  | port p hstate =>
    refine .inr ⟨_, rfl, ?_⟩
    rintro _ ⟨rfl⟩
    exact ⟨hstate, rfl⟩
  | _ => exact .inl rfl

end

/-- Where the description of a declaration comes from: what is left over from other lists, and the
comments of its own list. It is made of the latter alone if nothing but empty comments is left
over, and only then. -/
structure Place.Describes {lines : List String} {list : State} (p : Place lines list)
    (description : String) : Prop where
  eq_joined : description = joined (p.leftover ++ p.comments)
  madeOf_iff : MadeOf description p.comments ↔ ∀ text ∈ p.leftover, text = ""

theorem Place.describes_comment {lines : List String} {list : State} (p : Place lines list) :
    p.Describes p.reader.comment where
  eq_joined := p.comment_eq
  madeOf_iff := by
    rw [p.comment_eq]
    exact madeOf_joined_append_iff _ _

/-- Every declaration of a list has a place, from which its description comes. -/
theorem exists_describes {α : Type} {list : State} (hlist : list.IsList)
    {entries : Interface → List (Entry α)} {description : α → String} (hnil : entries {} = [])
    (hfeed : ∀ {r line r'}, Feeds r line r' → entries r'.interface = entries r.interface ∨
      ∃ e, entries r'.interface = entries r.interface ++ [e] ∧
        ∀ d, e = .declaration d → r.state = list ∧ description d = r.comment)
    {lines : List String} {before after : List (Entry α)} {d : α}
    (h : entries (run lines).interface = before ++ .declaration d :: after) :
    ∃ p : Place lines list, entries p.reader.interface = before ∧
      entries (p.reader.feed p.line).interface = before ++ [.declaration d] ∧
      p.Describes (description d) := by
  have hgrows : ∀ lines line,
      entries (run (lines ++ [line])).interface = entries (run lines).interface ∨
        ∃ e, entries (run (lines ++ [line])).interface = entries (run lines).interface ++ [e] := by
    intro lines line
    rw [run_concat]
    rcases hfeed (feeds_run lines line) with hsame | ⟨e, hadded, -⟩
    · exact .inl hsame
    · exact .inr ⟨e, hadded⟩
  obtain ⟨read, line, rest, heq, hbefore, hadds⟩ := exists_line hnil hgrows h
  rw [run_concat] at hadds
  rcases hfeed (feeds_run read line) with hsame | ⟨e, hadded, hdeclares⟩
  · rw [hadds, hbefore] at hsame
    simp at hsame
  rw [hadds, hbefore, List.append_cancel_left_eq, List.singleton_inj] at hadded
  obtain ⟨hstate, hdescription⟩ := hdeclares d hadded.symm
  obtain ⟨p, hreader, rfl⟩ := exists_place heq hlist hstate
  refine ⟨p, ?_, ?_, ?_⟩
  · rw [hreader, hbefore]
  · rw [hreader, hadds]
  · rw [hdescription, ← hreader]
    exact p.describes_comment

/-- The description of a generic or port joins what the lists closed since the last entry have left
over and the comments of its own list behind the first line of the list or its last entry. It is
made of comments of its own list alone exactly if what is left over is empty. -/
theorem description_origin (source : String) :
    (∀ before g after, (read source).interface.generics = before ++ .declaration g :: after →
      ∃ p : Place (Text.lines source) .generics, p.reader.interface.generics = before ∧
        (p.reader.feed p.line).interface.generics = before ++ [.declaration g] ∧
        p.Describes g.description) ∧
    (∀ before q after, (read source).interface.ports = before ++ .declaration q :: after →
      ∃ p : Place (Text.lines source) .ports, p.reader.interface.ports = before ∧
        (p.reader.feed p.line).interface.ports = before ++ [.declaration q] ∧
        p.Describes q.description) := by
  have hread : read source = run (Text.lines source) := feedUntilFinished_eq _ _
  rw [hread]
  constructor
  · intro before g after h
    exact exists_describes (.inl rfl) rfl Feeds.generics h
  · intro before q after h
    exact exists_describes (.inr rfl) rfl Feeds.ports h

/-- A list of generics that ends with a comment, and a list of ports without comments. -/
def leftoverSource : String :=
  "entity demo is\ngeneric (\ndepth : natural\n-- in words\n);\nport (\nclk : in bit\n);\n" ++
  "end entity;"

/-- The port of `leftoverSource`. -/
def describedPort : Port :=
  { name := "clk", direction := "in", type := "bit", description := "in words" }

theorem ports_leftoverSource :
    (read leftoverSource).interface.ports = [.declaration describedPort] := by
  decide +kernel

theorem description_origin_leftover :
    (read leftoverSource).interface.ports = [] ++ .declaration describedPort :: [] ∧
    ∃ p : Place (Text.lines leftoverSource) .ports, p.reader.interface.ports = [] ∧
      (p.reader.feed p.line).interface.ports = [] ++ [.declaration describedPort] ∧
      p.Describes "in words" :=
  ⟨ports_leftoverSource,
    (description_origin leftoverSource).2 [] describedPort [] ports_leftoverSource⟩

/-- A list in which no comment line stands has no comments. -/
theorem Place.comments_eq_nil {lines : List String} {list : State} (p : Place lines list)
    (h : ∀ i (hi : i < lines.length),
      commentText? lines[i] = none ∨ (run (lines.take i)).state ≠ list) : p.comments = [] := by
  obtain ⟨head, earlier, own, line, rest, rfl, -, hcut⟩ := p
  refine List.filterMap_eq_nil_iff.2 fun comment hmem => ?_
  obtain ⟨before, after, rfl⟩ := List.append_of_mem hmem
  have hstate := hcut.inside before (List.prefix_append _ _)
  have hsplit : head ++ earlier ++ (before ++ comment :: after) ++ line :: rest =
      head ++ earlier ++ before ++ comment :: (after ++ line :: rest) := by simp
  rw [hsplit] at h
  have hline := h (head ++ earlier ++ before).length (by
    simp only [List.length_append, List.length_cons]
    omega)
  rw [List.take_left, List.getElem_append_right (Nat.le_refl _)] at hline
  simpa using hline.resolve_right (not_not.2 hstate)

/-- The comment of the generics describes the port, which has none in its list. -/
theorem leftover_describes_port :
    (read leftoverSource).interface.ports = [.declaration describedPort] ∧
    ∀ p : Place (Text.lines leftoverSource) .ports,
      ¬ MadeOf describedPort.description p.comments := by
  refine ⟨ports_leftoverSource, fun p => ?_⟩
  rw [p.comments_eq_nil (by decide +kernel)]
  rintro ⟨part, hpart, heq⟩
  rw [List.sublist_nil.1 hpart] at heq
  exact absurd heq (by decide)

end Reader

end RegAtlas.Entity
