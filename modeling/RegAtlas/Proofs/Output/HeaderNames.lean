import RegAtlas.Proofs.Output.CHeader
import RegAtlas.Proofs.Output.Declared

/-!
# Declarations of C headers

The enums and structs that the lines of a header declare, with the lines inside of them. The names
of enumerators and members and the widths of members are read off these lines.
-/

namespace RegAtlas.CHeader

open Output Text LineWriter

/-! ### Reading declarations -/

inductive ScopeKind where
  | enum
  | struct
  deriving DecidableEq, Repr

/-- An enum or a struct with the lines of its enumerators or members. -/
structure Scope where
  kind : ScopeKind
  lines : List String
  deriving DecidableEq, Repr

def Scope.add (s : Scope) (line : String) : Scope := { s with lines := s.lines ++ [line] }

def ScopeKind.closing : ScopeKind → String
  | .enum => "\x7d;"
  | .struct => "\x7d s;"

/-- The kind of the declaration that a line opens. -/
def opening? (line : String) : Option ScopeKind :=
  if "enum ".toList.isPrefixOf line.toList then some .enum
  else if "struct ".toList.isPrefixOf line.toList then some .struct
  else none

/-- The name that a line declares: an enumerator is its first word, a member its second. -/
def ScopeKind.declared : ScopeKind → String → String
  | .enum, line => nameAt line.toList
  | .struct, line => nameAt (line.toList.dropWhile (! isBlank ·))

/-- The names of the enumerators or members. -/
def Scope.names (s : Scope) : List String := s.lines.map s.kind.declared

/-- The name and the width of the member that a line declares. The width stands behind a colon. -/
def memberOn (line : String) : String × Nat :=
  (ScopeKind.struct.declared line, numberAt ((line.toList.dropWhile (· != ':')).drop 2))

/-- What was read so far. -/
structure Reading where
  /-- The declaration that is still open. -/
  inside : Option Scope
  closed : List Scope
  deriving DecidableEq, Repr

def Reading.step (s : Reading) (line : String) : Reading :=
  if IsCommentary '/' line then s
  else match s.inside with
    | none => { s with inside := (opening? line).map fun kind => ⟨kind, []⟩ }
    | some scope =>
      if line = scope.kind.closing then ⟨none, s.closed ++ [scope]⟩
      else { s with inside := some (scope.add line) }

/-- The declarations in the lines of a text. -/
def scopes (w : LineWriter) : List Scope := (w.shown.foldl Reading.step ⟨none, []⟩).closed

/-- The enumerators of all enums of a text, in the order of its lines. -/
def enumerators (w : LineWriter) : List String :=
  ((scopes w).filter (·.kind = .enum)).flatMap Scope.names

/-- The member names of every struct of a text. -/
def structs (w : LineWriter) : List (List String) :=
  ((scopes w).filter (·.kind = .struct)).map Scope.names

/-- The members of every struct of a text, with their widths. -/
def bitFields (w : LineWriter) : List (List (String × Nat)) :=
  ((scopes w).filter (·.kind = .struct)).map fun s => s.lines.map memberOn

/-! ### Writing declarations -/

theorem step_of_isCommentary {line : String} (h : IsCommentary '/' line) (s : Reading) :
    s.step line = s := if_pos h

/-- Reads outside of declarations. -/
def fileReader : LineReader Reading Scope where
  start := ⟨none, []⟩
  step := Reading.step
  state found := ⟨none, found⟩
  mark := '/'
  mark_not_blank := by decide
  passes _ _ h := step_of_isCommentary h _

/-- Reads inside of a declaration, behind the given ones. -/
def scopeReader (kind : ScopeKind) (closed : List Scope) : LineReader Reading String where
  start := ⟨none, []⟩
  step := Reading.step
  state lines := ⟨some ⟨kind, lines⟩, closed⟩
  mark := '/'
  mark_not_blank := by decide
  passes _ _ h := step_of_isCommentary h _

variable {w : LineWriter} {waiting : List String} {found : List Scope} {lines : List String}
  {kind : ScopeKind}

/-- Outside of declarations, a line with such a character at its beginning opens none. -/
theorem fileReader_step {text : String} {c : Char} (hhead : text.toList.head? = some c)
    (hc : c ≠ 'e' ∧ c ≠ 's' ∧ isBlank c = false) (found : List Scope) :
    fileReader.step (fileReader.state found) (trimStart text) = fileReader.state found := by
  obtain ⟨rest, hrest⟩ := List.head?_eq_some_iff.1 hhead
  have hopening : opening? text = none := by
    simp [opening?, hrest, List.isPrefixOf, hc.1.symm, hc.2.1.symm]
  rw [trimStart_of_head? hhead hc.2.2]
  simp [fileReader, Reading.step, hopening]

/-- The line opens a declaration of the kind. -/
structure Opens (kind : ScopeKind) (line : String) : Prop where
  opening : opening? line = some kind
  trimmed : trimStart line = line
  code : ¬IsCommentary '/' line

theorem opens_enum (name : String) : Opens .enum ("enum " ++ name ++ " \x7b") := by
  have hlist : ("enum " ++ name ++ " \x7b").toList =
      'e' :: 'n' :: 'u' :: 'm' :: ' ' :: (name.toList ++ [' ', '\x7b']) := by simp
  exact ⟨by simp [opening?, hlist, List.isPrefixOf],
    trimStart_of_head? (c := 'e') (by simp [hlist]) (by decide),
    by simp [IsCommentary, hlist, ← String.toList_inj]⟩

theorem opens_struct (name : String) : Opens .struct ("struct " ++ name ++ "_s \x7b") := by
  have hlist : ("struct " ++ name ++ "_s \x7b").toList =
      's' :: 't' :: 'r' :: 'u' :: 'c' :: 't' :: ' ' ::
        (name.toList ++ ['_', 's', ' ', '\x7b']) := by
    simp
  exact ⟨by simp [opening?, hlist, List.isPrefixOf],
    trimStart_of_head? (c := 's') (by simp [hlist]) (by decide),
    by simp [IsCommentary, hlist, ← String.toList_inj]⟩

theorem finds_openScope {opener : String} (hopens : Opens kind opener)
    (h : fileReader.Finds w waiting found) :
    (scopeReader kind found).Finds (w.openScope opener) waiting [] := by
  have hstep : Reading.step ⟨none, found⟩ opener = ⟨some ⟨kind, []⟩, found⟩ := by
    simp [Reading.step, hopens.code, hopens.opening]
  refine .indent ⟨(w.style_line opener).symm ▸ h.mark_eq, ?_, ?_⟩
  · rw [line_eq]
    exact h.waiting_eq
  · rw [w.shown_line, List.foldl_append, hopens.trimmed]
    exact h.read_eq ▸ hstep

theorem finds_closeScope (h : (scopeReader kind found).Finds w waiting lines) :
    fileReader.Finds (w.closeScope kind.closing) waiting (found ++ [⟨kind, lines⟩]) := by
  have htrim : trimStart kind.closing = kind.closing := by cases kind <;> decide
  have hcode : ¬IsCommentary '/' kind.closing := by cases kind <;> decide
  have hstep : Reading.step ⟨some ⟨kind, lines⟩, found⟩ kind.closing =
      ⟨none, found ++ [⟨kind, lines⟩]⟩ := by
    simp [Reading.step, hcode]
  have hdedent := h.dedent
  refine ⟨(w.dedent.style_line _).symm ▸ hdedent.mark_eq, ?_, ?_⟩
  · rw [LineWriter.closeScope, line_eq]
    exact hdedent.waiting_eq
  · rw [LineWriter.closeScope, w.dedent.shown_line, List.foldl_append, htrim]
    exact hdedent.read_eq ▸ hstep

/-- Inside of a declaration, every line but the closing one belongs to it. -/
theorem scopeReader_step {line : String} (hcode : ¬IsCommentary '/' line)
    (hne : line ≠ kind.closing) (lines : List String) :
    (scopeReader kind found).step ((scopeReader kind found).state lines) line =
      (scopeReader kind found).state (lines ++ [line]) := by
  simp [scopeReader, Reading.step, Scope.add, hcode, hne]

/-! ### Lines of declarations -/

/-- The line of an enumerator. -/
structure DeclaresEnumerator (text name : String) : Prop where
  plain : IsPlainName name
  split : ∃ blanks rest, (∀ b ∈ blanks, isBlank b) ∧
    text.toList = name.toList ++ (blanks ++ '=' :: rest)

theorem DeclaresEnumerator.head? {text name : String} (h : DeclaresEnumerator text name) :
    ∃ c, (trimStart text).toList.head? = some c ∧ (c = '=' ∨ c ∈ name.toList) := by
  obtain ⟨hplain, blanks, rest, hblanks, htext⟩ := h
  cases hname : name.toList with
  | nil =>
    refine ⟨'=', ?_, .inl rfl⟩
    rw [trimStart, htext, hname, List.nil_append, trimStartChars,
      List.dropWhile_append_of_pos hblanks, List.dropWhile_cons_of_neg (by decide),
      String.toList_ofList, List.head?_cons]
  | cons c cs =>
    have hc : endsName c = false := hplain c (by simp [hname])
    refine ⟨c, ?_, .inr List.mem_cons_self⟩
    rw [trimStart_of_head? (c := c) (by simp [htext, hname]) (isBlank_of_endsName hc)]
    simp [htext, hname]

theorem DeclaresEnumerator.declared {text name : String} (h : DeclaresEnumerator text name) :
    ScopeKind.enum.declared (trimStart text) = name := by
  obtain ⟨hplain, blanks, rest, hblanks, htext⟩ := h
  rw [ScopeKind.declared, nameAt_trimStart, htext]
  exact nameAt_append hplain hblanks (by decide) (by decide)

theorem DeclaresEnumerator.step {text name : String} (h : DeclaresEnumerator text name)
    (lines : List String) :
    (scopeReader .enum found).step ((scopeReader .enum found).state lines) (trimStart text) =
      (scopeReader .enum found).state (lines ++ [trimStart text]) := by
  obtain ⟨c, hhead, hc⟩ := h.head?
  have hcode : ¬IsCommentary '/' (trimStart text) := by
    rintro (hempty | hslash)
    · simp [hempty] at hhead
    · rw [hhead, Option.some.injEq] at hslash
      subst hslash
      exact hc.elim (by decide) fun hname => absurd (h.plain _ hname) (by decide)
  have hne : trimStart text ≠ ScopeKind.enum.closing := by
    obtain ⟨-, blanks, rest, -, htext⟩ := h
    have hequals : '=' ∈ (trimStart text).toList := by
      have hmem : '=' ∈ text.toList := by simp [htext]
      rw [← List.takeWhile_append_dropWhile (p := isBlank) (l := text.toList),
        List.mem_append] at hmem
      rw [trimStart, String.toList_ofList]
      exact hmem.resolve_left fun hblank => absurd (List.mem_takeWhile_imp hblank) (by decide)
    exact fun heq => absurd (heq ▸ hequals) (by decide)
  exact scopeReader_step hcode hne lines

theorem declaresEnumerator_address {name : String} (hname : IsPlainName name) (width n : Nat) :
    DeclaresEnumerator (padEnd width name ++ " = 0x" ++ digits 16 4 n ++ ",") name where
  plain := hname
  split := ⟨List.replicate (width - name.length) ' ' ++ [' '],
    [' ', '0', 'x'] ++ ((digits 16 4 n).toList ++ [',']),
    fun _ => isBlank_of_mem_padding, by simp [toList_padEnd]⟩

theorem declaresEnumerator_value {name : String} (hname : IsPlainName name) (n : Nat) :
    DeclaresEnumerator s!"{name} = {n}," name where
  plain := hname
  split := ⟨[' '], ' ' :: ((toString n).toList ++ [',']), by decide, by simp⟩

/-- An enum holds its lines. -/
theorem finds_enum {α : Type} (render name : α → String) {as : List α}
    (hlines : ∀ a ∈ as, DeclaresEnumerator (render a) (name a)) (enumName : String)
    (h : fileReader.Finds w waiting found) :
    fileReader.Finds (w.scope ("enum " ++ enumName ++ " \x7b") "\x7d;"
      (·.writeLines (as.map render))) waiting
      (found ++ [⟨.enum, as.map fun a => trimStart (render a)⟩]) := by
  have hopen := finds_openScope (opens_enum enumName) h
  have hbody := hopen.writeLines render (fun a => [trimStart (render a)]) as
    fun lines a ha => (hlines a ha).step lines
  rw [List.nil_append, ← List.map_eq_flatMap] at hbody
  exact finds_closeScope hbody

/-- The enumerators of an enum are the names at the beginning of its lines. -/
theorem names_enum {α : Type} {render name : α → String} {as : List α}
    (hlines : ∀ a ∈ as, DeclaresEnumerator (render a) (name a)) :
    Scope.names ⟨.enum, as.map fun a => trimStart (render a)⟩ = as.map name := by
  rw [Scope.names, List.map_map]
  exact List.map_congr_left fun a ha => (hlines a ha).declared

/-! ### Members -/

/-- The line of a member. -/
def memberLine (wordType : String) (pad : Nat) (m : Member) : String :=
  s!"{wordType} {padEnd pad m.name} : {m.width};"

/-- The type of an access word. -/
def wordType (width : Nat) : String := s!"uint{width}_t"

theorem isPlainName_wordType (width : Nat) : IsPlainName (wordType width) :=
  isPlainName_append (isPlainName_append (s := "uint") (by decide) (isPlainName_toString width))
    (t := "_t") (by decide)

theorem head?_wordType (width : Nat) : (wordType width).toList.head? = some 'u' := by
  simp [wordType]

section

variable (width pad : Nat) {m : Member} (hname : IsPlainName m.name)

theorem toList_memberLine (m : Member) : (memberLine (wordType width) pad m).toList =
    (wordType width).toList ++ ' ' :: (m.name.toList ++
      ((List.replicate (pad - m.name.length) ' ' ++ [' ']) ++ ':' ::
        (' ' :: ((toString m.width).toList ++ [';'])))) := by
  simp [memberLine, toList_padEnd]

theorem head?_memberLine (m : Member) :
    (memberLine (wordType width) pad m).toList.head? = some 'u' := by
  rw [toList_memberLine, List.head?_append, head?_wordType, Option.some_or]

include hname

theorem declared_memberLine :
    ScopeKind.struct.declared (memberLine (wordType width) pad m) = m.name := by
  have htype : ∀ c ∈ (wordType width).toList, (! isBlank c) = true := fun c hc => by
    simp [isBlank_of_endsName (isPlainName_wordType width c hc)]
  rw [ScopeKind.declared, toList_memberLine, List.dropWhile_append_of_pos htype,
    List.dropWhile_cons_of_neg (by decide), ← List.singleton_append,
    nameAt_of_blank (List.forall_mem_singleton.2 (by decide))]
  exact nameAt_append hname (fun _ => isBlank_of_mem_padding) (by decide) (by decide)

/-- The name and the width of a member are read back from its line. -/
theorem memberOn_memberLine :
    memberOn (memberLine (wordType width) pad m) = (m.name, m.width) := by
  have hcolon : ∀ c : Char, endsName c = false → (c != ':') = true := by
    intro c hc
    rw [bne_iff_ne]
    rintro rfl
    exact absurd hc (by decide)
  have hblank : ∀ b ∈ List.replicate (pad - m.name.length) ' ' ++ [' '], (b != ':') = true := by
    intro b hb
    rw [bne_iff_ne]
    rintro rfl
    exact absurd (isBlank_of_mem_padding hb) (by decide)
  rw [memberOn, declared_memberLine width pad hname, toList_memberLine,
    List.dropWhile_append_of_pos fun c hc => hcolon c (isPlainName_wordType width c hc),
    List.dropWhile_cons_of_pos (by decide),
    List.dropWhile_append_of_pos fun c hc => hcolon c (hname c hc),
    List.dropWhile_append_of_pos hblank, List.dropWhile_cons_of_neg (by decide)]
  exact congrArg _ (numberAt_toString_append m.width (by decide) [])

end

theorem finds_member (width pad : Nat) (m : Member)
    (h : (scopeReader .struct found).Finds w waiting lines) :
    (scopeReader .struct found).Finds (writeMember (wordType width) pad w m) waiting
      (lines ++ [memberLine (wordType width) pad m]) := by
  have hfirst := head?_memberLine width pad m
  have hline (v : LineWriter) (hv : (scopeReader .struct found).Finds v waiting lines) :
      (scopeReader .struct found).Finds (v.line (memberLine (wordType width) pad m)) waiting
        (lines ++ [memberLine (wordType width) pad m]) := by
    refine hv.line _ ?_
    rw [trimStart_of_head? hfirst (by decide), scopeReader_step ?_ ?_]
    · rintro (hempty | hslash)
      · rw [hempty] at hfirst
        exact absurd hfirst (by decide)
      · rw [hfirst] at hslash
        exact absurd hslash (by decide)
    · intro heq
      rw [heq] at hfirst
      exact absurd hfirst (by decide)
  rw [writeMember]
  split
  · exact hline _ (h.comment _)
  · exact hline _ h

/-! ### Words and whole headers -/

/-- The line of an enumerated value. -/
def valueLine (v : Nat × String) : String := s!"{v.2} = {v.1},"

/-- The line of the address of a register. -/
def addressLine (lead : String) (pad : Nat) (x : Register × Nat) : String :=
  padEnd pad (addressName lead x.1) ++ " = 0x" ++ digits 16 4 x.2 ++ ","

def Word.struct (o : OutputOptions) (word : Word) : Scope :=
  ⟨.struct, word.members.map (memberLine (wordType o.wordWidth) word.pad)⟩

def ValueEnum.scope (e : ValueEnum) : Scope :=
  ⟨.enum, e.values.map fun v => trimStart (valueLine v)⟩

/-- The declarations for an access word. -/
def Word.scopes (o : OutputOptions) (word : Word) : List Scope :=
  word.struct o :: word.enums.map ValueEnum.scope

/-- All names that are declared for an access word can be read back. -/
structure Word.Plain (word : Word) : Prop where
  members : ∀ m ∈ word.members, IsPlainName m.name
  values : ∀ e ∈ word.enums, ∀ v ∈ e.values, IsPlainName v.2

theorem finds_members (width pad : Nat) (ms : List Member)
    (h : (scopeReader .struct found).Finds w waiting []) :
    (scopeReader .struct found).Finds (ms.foldl (writeMember (wordType width) pad) w) waiting
      (ms.map (memberLine (wordType width) pad)) := by
  have hmembers := h.foldl (writeMember (wordType width) pad)
    (fun m => [memberLine (wordType width) pad m]) ms
    fun v lines hv m _ => finds_member width pad m hv
  rwa [List.nil_append, ← List.map_eq_flatMap] at hmembers

/-- The union for an access word declares its struct. -/
theorem finds_union (width pad : Nat) (name : String) (ms : List Member)
    (h : fileReader.Finds w waiting found) :
    fileReader.Finds (w.scope ("union " ++ name ++ " \x7b") "\x7d;" fun w =>
      (w.line s!"{wordType width} u{width};").scope ("struct " ++ name ++ "_s \x7b") "\x7d s;"
        fun w => ms.foldl (writeMember (wordType width) pad) w)
      waiting (found ++ [⟨.struct, ms.map (memberLine (wordType width) pad)⟩]) := by
  have hunion := (h.line ("union " ++ name ++ " \x7b")
    (fileReader_step (c := 'u') (by simp) (by decide) found)).indent
  have hfirst := hunion.line s!"{wordType width} u{width};"
    (fileReader_step (c := 'u') (by simp [head?_wordType]) (by decide) found)
  have hstruct := finds_closeScope (finds_members width pad ms
    (finds_openScope (opens_struct name) hfirst))
  exact hstruct.dedent.line "\x7d;" (fileReader_step (c := '\x7d') (by decide) (by decide) _)

theorem finds_addressEnum (m : MemoryMap) (lead : String) (pad : Nat)
    (entries : List (Register × Nat)) (h : fileReader.Finds w waiting found) :
    fileReader.Finds (writeAddressEnum m lead pad entries w) waiting
      (found ++ [⟨.enum, entries.map fun x => trimStart (addressLine lead pad x)⟩]) :=
  finds_enum (addressLine lead pad) (fun x => addressName lead x.1)
    (fun _ _ => declaresEnumerator_address (isPlainName_shoutingSnake _) _ _) _ (h.comment _)

theorem finds_valueEnums {es : List ValueEnum} (hplain : ∀ e ∈ es, ∀ v ∈ e.values, IsPlainName v.2)
    (h : fileReader.Finds w waiting found) :
    fileReader.Finds (es.foldl (fun w e => (w.scope ("enum " ++ e.name ++ " \x7b") "\x7d;" fun w =>
      w.writeLines (e.values.map valueLine)).blank) w) waiting
      (found ++ es.map ValueEnum.scope) := by
  have henums := h.foldl _ (fun e => [ValueEnum.scope e]) es fun _ _ hv e he =>
    (finds_enum valueLine Prod.snd
      (fun v hv => declaresEnumerator_value (hplain e he v hv) v.1) e.name hv).blank
  rwa [← List.map_eq_flatMap] at henums

theorem finds_word {word : Word} (o : OutputOptions) (hword : word.Plain)
    (h : fileReader.Finds w waiting found) :
    fileReader.Finds (writeWord o w word) waiting (found ++ word.scopes o) := by
  have hunion := (finds_union o.wordWidth word.pad (unionName o.lead word.group) word.members
    h).blank
  have henums := finds_valueEnums hword.values hunion
  rwa [List.append_assoc, List.singleton_append] at henums

/-- The lines so far end outside of declarations. -/
def Outside (w : LineWriter) : Prop :=
  w.style.commentChar = '/' ∧ (w.shown.foldl Reading.step ⟨none, []⟩).inside = none

theorem Outside.finds (h : Outside w) : fileReader.Finds w w.deferred (scopes w) where
  mark_eq := h.1
  waiting_eq := rfl
  read_eq := congrArg (Reading.mk · (scopes w)) h.2

/-- The members that an access word shows in its struct. -/
def Word.bitFields (word : Word) : List (String × Nat) :=
  word.members.map fun m => (m.name, m.width)

theorem map_memberOn_struct (o : OutputOptions) {word : Word} (hword : word.Plain) :
    (word.struct o).lines.map memberOn = word.bitFields := by
  rw [Word.struct, List.map_map]
  exact List.map_congr_left fun m hm => memberOn_memberLine _ _ (hword.members m hm)

theorem filter_struct_scopes (o : OutputOptions) (word : Word) :
    (word.scopes o).filter (·.kind = .struct) = [word.struct o] := by
  simp [Word.scopes, Word.struct, ValueEnum.scope, List.filter_map, Function.comp_def]

/-- Writing an access word adds its struct to those in the lines. -/
theorem bitFields_writeWord {word : Word} (o : OutputOptions) (hword : word.Plain)
    (h : Outside w) : bitFields (writeWord o w word) = bitFields w ++ [word.bitFields] := by
  have hscopes : scopes (writeWord o w word) = scopes w ++ word.scopes o :=
    congrArg Reading.closed (finds_word o hword h.finds).read_eq
  rw [bitFields, hscopes, List.filter_append, filter_struct_scopes, List.map_append,
    List.map_singleton, map_memberOn_struct o hword, bitFields]

/-- The declarations of a header, in the order of its lines. -/
def Content.scopes (o : OutputOptions) (c : Content) : List Scope :=
  ⟨.enum, c.addresses.map fun x => trimStart (addressLine o.lead c.addressPad x)⟩ ::
    c.words.flatMap (Word.scopes o)

section

variable {o : OutputOptions} {c : Content} (hplain : ∀ word ∈ c.words, word.Plain)
include hplain

/-- The lines of a header declare its content. -/
theorem scopes_write : scopes (write o c) = c.scopes o := by
  have hguard : ∀ text : String, text.toList.head? = some '#' → ∀ found,
      fileReader.step (fileReader.state found) (trimStart text) = fileReader.state found :=
    fun _ hhead found => fileReader_step hhead (by decide) found
  have hbegin : fileReader.Finds (beginHeader o) [s!"#endif /* {guardName o} */"] [] :=
    ((((LineReader.finds_beginText rfl o).line
      s!"#ifndef {guardName o}" (hguard _ (by simp) [])).line
      s!"#define {guardName o}" (hguard _ (by simp) [])).defer _).blank
  have haddresses := (finds_addressEnum c.map o.lead c.addressPad c.addresses hbegin).blank
  have hwords := ((haddresses.comment (banner "Register descriptions:")).blank).foldl
    (writeWord o) (Word.scopes o) c.words fun _ _ hv word hword =>
      finds_word o (hplain word hword) hv
  have hall := hwords.flushAll (hguard s!"#endif /* {guardName o} */" (by simp) _)
  exact congrArg Reading.closed hall.read_eq

/-- The structs of a header are those of its words. -/
theorem filter_struct_scopes_write :
    (scopes (write o c)).filter (·.kind = .struct) = c.words.map (Word.struct o) := by
  rw [scopes_write hplain, Content.scopes, List.filter_cons_of_neg (by simp), List.filter_flatMap]
  simp only [filter_struct_scopes]
  exact List.map_eq_flatMap.symm

theorem structs_write : structs (write o c) = c.words.map fun word =>
    word.members.map (·.name) := by
  rw [structs, filter_struct_scopes_write hplain, List.map_map]
  refine List.map_congr_left fun word hword => ?_
  rw [Function.comp_apply, Word.struct, Scope.names, List.map_map]
  exact List.map_congr_left fun m hm => declared_memberLine _ _ ((hplain word hword).members m hm)

/-- The lines of a header show the members of its structs with their widths. -/
theorem bitFields_write : bitFields (write o c) = c.words.map Word.bitFields := by
  rw [bitFields, filter_struct_scopes_write hplain, List.map_map]
  exact List.map_congr_left fun word hword => map_memberOn_struct o (hplain word hword)

theorem enumerators_write : enumerators (write o c) =
    c.addresses.map (fun x => addressName o.lead x.1) ++
      c.words.flatMap fun word => word.enums.flatMap fun e => e.values.map Prod.snd := by
  have haddresses : Scope.names ⟨.enum, c.addresses.map fun x =>
      trimStart (addressLine o.lead c.addressPad x)⟩ =
        c.addresses.map fun x => addressName o.lead x.1 :=
    names_enum fun _ _ => declaresEnumerator_address (isPlainName_shoutingSnake _) _ _
  have hword (word : Word) (hword : word ∈ c.words) :
      ((word.scopes o).filter (·.kind = .enum)).flatMap Scope.names =
        word.enums.flatMap fun e => e.values.map Prod.snd := by
    have hkeep : (word.scopes o).filter (·.kind = .enum) = word.enums.map ValueEnum.scope := by
      simp [Word.scopes, Word.struct, ValueEnum.scope, List.filter_map, Function.comp_def]
    rw [hkeep, List.flatMap_map]
    exact List.flatMap_congr fun e he => names_enum fun v hv =>
      declaresEnumerator_value ((hplain word hword).values e he v hv) v.1
  rw [enumerators, scopes_write hplain, Content.scopes, List.filter_cons_of_pos (by simp),
    List.flatMap_cons, List.filter_flatMap, List.flatMap_assoc, haddresses]
  exact congrArg _ (List.flatMap_congr hword)

end

end RegAtlas.CHeader
