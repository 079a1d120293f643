import Mathlib.Data.List.Chain
import Mathlib.Data.List.TakeDrop
import Mathlib.Tactic.MkIffOfInductiveProp
import RegAtlas.Entity.Declaration
import RegAtlas.Proofs.Text.Cut

/-!
# Written declarations

How a generic and a port are written on one line, and for which names, types and defaults the line
is read back.
-/

namespace RegAtlas.Entity

/-! ### Pieces of a declaration -/

/-- No two dashes stand next to each other. -/
def NoDashes (cs : List Char) : Prop := cs.IsChain fun c d => ¬ (c = '-' ∧ d = '-')

instance (cs : List Char) : Decidable (NoDashes cs) :=
  inferInstanceAs (Decidable (cs.IsChain _))

/-- A name or a direction. -/
@[mk_iff]
structure IsName (s : String) : Prop where
  nonempty : s ≠ ""
  unbroken : ∀ c ∈ s.toList, Text.isBlank c = false ∧ c ≠ ':' ∧ c ≠ ';'
  noDashes : NoDashes s.toList

/-- The type of a generic. -/
@[mk_iff]
structure IsGenericType (s : String) : Prop where
  nonempty : s ≠ ""
  trimmed : Text.trim s = s
  unmarked : ∀ c ∈ s.toList, c ≠ '(' ∧ c ≠ ':' ∧ c ≠ ';'
  noDashes : NoDashes s.toList

/-- The default of a generic. -/
@[mk_iff]
structure IsDefault (s : String) : Prop where
  nonempty : s ≠ ""
  unmarked : ∀ c ∈ s.toList, c ≠ ' ' ∧ c ≠ '\t' ∧ c ≠ '=' ∧ c ≠ ';' ∧ c ≠ ':'
  noDashes : NoDashes s.toList

/-- The type of a port: words with single blanks between them, and a blank before every opening
parenthesis but a first one. -/
@[mk_iff]
structure IsPortType (s : String) : Prop where
  nonempty : s ≠ ""
  spaced : " ".intercalate (Text.words s) = s
  parens : s.toList.IsChain fun c d => d = '(' → c = ' '
  noDashes : NoDashes s.toList
  noSemicolon : s.toList.getLast? ≠ some ';'

/-- A generic that can be written. -/
@[mk_iff]
structure Generic.IsWritable (g : Generic) : Prop where
  name : IsName g.name
  type : IsGenericType g.type
  default : ∀ d ∈ g.default, IsDefault d

/-- A port that can be written. -/
@[mk_iff]
structure Port.IsWritable (p : Port) : Prop where
  name : IsName p.name
  direction : IsName p.direction
  type : IsPortType p.type

instance (s : String) : Decidable (IsName s) := decidable_of_iff' _ (isName_iff s)

instance (s : String) : Decidable (IsGenericType s) := decidable_of_iff' _ (isGenericType_iff s)

instance (s : String) : Decidable (IsDefault s) := decidable_of_iff' _ (isDefault_iff s)

instance (s : String) : Decidable (IsPortType s) := decidable_of_iff' _ (isPortType_iff s)

instance (g : Generic) : Decidable g.IsWritable := decidable_of_iff' _ (Generic.isWritable_iff g)

instance (p : Port) : Decidable p.IsWritable := decidable_of_iff' _ (Port.isWritable_iff p)

/-- A line with a name and what stands behind its colon. -/
def declarationLine (name rest : String) : String := name ++ " : " ++ rest ++ ";"

/-- `name : type := default;` -/
def Generic.line (g : Generic) : String :=
  declarationLine g.name (match g.default with
    | none => g.type
    | some d => g.type ++ " := " ++ d)

/-- `name : direction type;` -/
def Port.line (p : Port) : String := declarationLine p.name (p.direction ++ " " ++ p.type)

/-! ### Cutting a line -/

section

variable {p : Char → Bool} {cs ds : List Char} {c : Char}

theorem NoDashes.append_cons (h : NoDashes cs) (hc : c ≠ '-') (h' : NoDashes ds) :
    NoDashes (cs ++ c :: ds) := by
  refine List.isChain_append.2 ⟨h, ?_, ?_⟩
  · exact List.isChain_cons.2 ⟨fun d _ hd => hc hd.1, h'⟩
  · simp [hc]

theorem NoDashes.cons (h : NoDashes cs) (hc : c ≠ '-') : NoDashes (c :: cs) :=
  NoDashes.append_cons .nil hc h

theorem beforeDashes_of_noDashes (h : NoDashes cs) : beforeDashes cs = cs := by
  fun_induction beforeDashes cs with
  | case1 => rfl
  | case2 cs => exact absurd ⟨rfl, rfl⟩ (List.isChain_cons_cons.1 h).1
  | case3 c cs _ ih => rw [ih (List.IsChain.tail h)]

theorem splitAt?_append_cons (h : ∀ c ∈ cs, p c = false) (hc : p c) :
    splitAt? p (cs ++ c :: ds) = some (cs, ds) := by
  have hcs : ∀ c ∈ cs, (! p c) = true := by simpa using h
  rw [splitAt?, List.span_eq_takeWhile_dropWhile, List.takeWhile_append_of_pos hcs,
    List.dropWhile_append_of_pos hcs]
  simp [hc]

theorem splitAt?_eq_none (h : ∀ c ∈ cs, p c = false) : splitAt? p cs = none := by
  have hcs : ∀ c ∈ cs, (! p c) = true := by simpa using h
  rw [splitAt?, List.span_eq_takeWhile_dropWhile, List.dropWhile_eq_nil_iff.2 hcs]

end

/-! ### Names and lines -/

section

variable {name rest : String}

theorem IsName.forall_not_blank (h : IsName name) : ∀ c ∈ name.toList, Text.isBlank c = false :=
  fun c hc => (h.unbroken c hc).1

/-- Before the colon of a declaration stands nothing but the name. -/
theorem IsName.forall_ne_colon (h : IsName name) : ∀ c ∈ name.toList ++ [' '], c ≠ ':' := by
  rw [List.forall_mem_append]
  exact ⟨fun c hc => (h.unbroken c hc).2.1, by decide⟩

theorem IsName.exists_cons (h : IsName name) : ∃ d ds, name.toList = d :: ds :=
  List.exists_cons_of_ne_nil (by simpa using h.nonempty)

theorem IsName.trimChars (h : IsName name) : Text.trimChars name.toList = name.toList :=
  Text.trimChars_of_forall_not_blank h.forall_not_blank

/-- No keyword is found before a name. -/
theorem withoutKeyword_of_isName (h : IsName name) (keyword : String) :
    withoutKeyword keyword (name.toList ++ [' ']) = name.toList := by
  have htrim : Text.trimChars (name.toList ++ [' ']) = name.toList :=
    Text.trimChars_concat_of_isBlank (by decide) (by simpa using h.nonempty) h.trimChars
  rw [withoutKeyword, htrim, splitAt?_eq_none h.forall_not_blank]

theorem toList_declarationLine (name rest : String) : (declarationLine name rest).toList =
    (name.toList ++ [' ']) ++ ':' :: ' ' :: (rest.toList ++ [';']) := by
  simp [declarationLine]

/-- Nothing is trimmed between a name and a semicolon. -/
theorem IsName.trimChars_append (h : IsName name) (cs : List Char) :
    Text.trimChars (name.toList ++ (cs ++ [';'])) = name.toList ++ (cs ++ [';']) := by
  obtain ⟨d, ds, hcons⟩ := h.exists_cons
  have hblank := h.forall_not_blank d (by simp [hcons])
  rw [Text.trimChars_eq_self_iff, ← List.append_assoc, List.getLast?_concat, hcons]
  exact ⟨by simpa using hblank, by decide⟩

theorem trimChars_declarationLine (h : IsName name) (rest : String) :
    Text.trimChars (declarationLine name rest).toList = (declarationLine name rest).toList := by
  have hline : (declarationLine name rest).toList =
      name.toList ++ ((' ' :: ':' :: ' ' :: rest.toList) ++ [';']) := by
    simp [toList_declarationLine]
  rw [hline, h.trimChars_append]

/-- Nothing is cut off a declaration. -/
theorem withoutComment_declarationLine (h : IsName name) (hrest : NoDashes rest.toList) :
    withoutComment (declarationLine name rest).toList = (declarationLine name rest).toList := by
  have hline : NoDashes (declarationLine name rest).toList := by
    have hend : NoDashes (rest.toList ++ [';']) := hrest.append_cons (by decide) .nil
    have hcolon : NoDashes (':' :: ' ' :: (rest.toList ++ [';'])) :=
      (hend.cons (by decide)).cons (by decide)
    rw [toList_declarationLine, List.append_assoc]
    exact h.noDashes.append_cons (by decide) hcolon
  rw [withoutComment, beforeDashes_of_noDashes hline, trimChars_declarationLine h]

end

/-! ### Generics -/

section

variable {g : Generic} {type default : String}

theorem splitChars_of_forall_ne {cs : List Char} (h : ∀ c ∈ cs, c ≠ ':') :
    Text.splitChars (· == ':') cs = [cs] :=
  Text.splitChars_eq_singleton fun c hc => beq_eq_false_iff_ne.2 (h c hc)

theorem splitChars_append_colon {cs : List Char} (h : ∀ c ∈ cs, c ≠ ':') (ds : List Char) :
    Text.splitChars (· == ':') (cs ++ ':' :: ds) = cs :: Text.splitChars (· == ':') ds := by
  rw [Text.splitChars_append_cons (by decide), splitChars_of_forall_ne h]
  rfl

/-- What stands behind the colon of a declaration with a default. -/
theorem toList_assignment (type default : String) : (type ++ " := " ++ default).toList =
    (type.toList ++ [' ']) ++ ':' :: '=' :: ' ' :: default.toList := by
  simp

theorem noDashes_assignment (htype : IsGenericType type) (hdefault : IsDefault default) :
    NoDashes (type ++ " := " ++ default).toList := by
  have hmark : NoDashes (':' :: '=' :: ' ' :: default.toList) :=
    ((hdefault.noDashes.cons (by decide)).cons (by decide)).cons (by decide)
  rw [toList_assignment, List.append_assoc]
  exact htype.noDashes.append_cons (by decide) hmark

/-- Between two colons, or a colon and a semicolon, stands nothing but the type. -/
theorem IsGenericType.forall_ne_colon (h : IsGenericType type) {c : Char} (hc : c ≠ ':') :
    ∀ d ∈ ' ' :: (type.toList ++ [c]), d ≠ ':' := by
  rw [List.forall_mem_cons, List.forall_mem_append, List.forall_mem_singleton]
  exact ⟨by decide, fun d hd => (h.unmarked d hd).2.1, hc⟩

theorem IsDefault.forall_ne_colon (h : IsDefault default) :
    ∀ d ∈ '=' :: ' ' :: (default.toList ++ [';']), d ≠ ':' := by
  rw [List.forall_mem_cons, List.forall_mem_cons, List.forall_mem_append]
  exact ⟨by decide, by decide, fun d hd => (h.unmarked d hd).2.2.2.2, by decide⟩

theorem splitChars_assignment (htype : IsGenericType type) (hdefault : IsDefault default) :
    Text.splitChars (· == ':') (' ' :: ((type ++ " := " ++ default).toList ++ [';'])) =
      [' ' :: (type.toList ++ [' ']), '=' :: ' ' :: (default.toList ++ [';'])] := by
  have hparts : ' ' :: ((type ++ " := " ++ default).toList ++ [';']) =
      (' ' :: (type.toList ++ [' '])) ++ ':' :: '=' :: ' ' :: (default.toList ++ [';']) := by
    simp
  rw [hparts, splitChars_append_colon (htype.forall_ne_colon (by decide)),
    splitChars_of_forall_ne hdefault.forall_ne_colon]

/-- A character that does not belong to the name of a type. -/
def isTypeEnd (c : Char) : Bool := c == '(' || c == ':' || c == ';'

theorem takeWhile_of_isGenericType (h : IsGenericType type) {after : List Char}
    (hafter : ∀ c ∈ after.head?, isTypeEnd c) :
    (type.toList ++ after).takeWhile (! isTypeEnd ·) = type.toList := by
  have hall : ∀ c ∈ type.toList, (! isTypeEnd c) = true := fun c hc => by
    simpa [isTypeEnd, and_assoc] using h.unmarked c hc
  rw [List.takeWhile_append_of_pos hall]
  cases after with
  | nil => simp
  | cons c after => simp [show isTypeEnd c = true from hafter c rfl]

/-- The name of a type is found between blanks. -/
theorem typeName_blank (h : IsGenericType type) : Text.trimChars ((Text.trimChars
    (' ' :: (type.toList ++ [' ']))).takeWhile (! isTypeEnd ·)) = type.toList := by
  have htrim := Text.trim_eq_self_iff.1 h.trimmed
  have htake : (type.toList ++ []).takeWhile (! isTypeEnd ·) = type.toList :=
    takeWhile_of_isGenericType h (by simp)
  rw [List.append_nil] at htake
  rw [Text.trimChars_cons_of_isBlank (by decide),
    Text.trimChars_concat_of_isBlank (by decide) (by simpa using h.nonempty) htrim, htake, htrim]

/-- The name of a type is found between a blank and a semicolon. -/
theorem typeName_semicolon (h : IsGenericType type) : Text.trimChars ((Text.trimChars
    (' ' :: (type.toList ++ [';']))).takeWhile (! isTypeEnd ·)) = type.toList := by
  have htrim := Text.trim_eq_self_iff.1 h.trimmed
  rw [Text.trimChars_cons_of_isBlank (by decide),
    Text.trimChars_concat (by decide) (by simpa using h.nonempty) htrim,
    takeWhile_of_isGenericType h (by decide), htrim]

/-- A default is found behind its mark. -/
theorem filter_default (h : IsDefault default) :
    ('=' :: ' ' :: (default.toList ++ [';'])).filter (! isDefaultMark ·) = default.toList := by
  have hall : ∀ c ∈ default.toList, (! isDefaultMark c) = true := fun c hc => by
    obtain ⟨hspace, htab, heq, hsemicolon, -⟩ := h.unmarked c hc
    simp [isDefaultMark, hspace, htab, heq, hsemicolon]
  rw [List.filter_cons_of_neg (by decide), List.filter_cons_of_neg (by decide), List.filter_append,
    List.filter_eq_self.2 hall]
  exact List.append_nil _

theorem Generic.parse?_line (h : g.IsWritable) :
    Generic.parse? g.line = some { g with description := "" } := by
  obtain ⟨hname, htype, hdefault⟩ := h
  obtain ⟨name, type, default, description⟩ := g
  dsimp only at hname htype hdefault
  cases default with
  | none =>
    have htypeName := typeName_semicolon htype
    simp only [isTypeEnd] at htypeName
    rw [Generic.parse?, Generic.line, withoutComment_declarationLine hname htype.noDashes,
      toList_declarationLine, splitChars_append_colon hname.forall_ne_colon,
      splitChars_of_forall_ne (htype.forall_ne_colon (by decide))]
    simp only [withoutKeyword_of_isName hname, htypeName]
    simp
  | some d =>
    have hd := hdefault d rfl
    have htypeName := typeName_blank htype
    simp only [isTypeEnd] at htypeName
    rw [Generic.parse?, Generic.line,
      withoutComment_declarationLine hname (noDashes_assignment htype hd), toList_declarationLine,
      splitChars_append_colon hname.forall_ne_colon, splitChars_assignment htype hd]
    simp only [withoutKeyword_of_isName hname, htypeName, List.head?_cons, Option.getD_some,
      filter_default hd]
    simp [hd.nonempty]

end

/-! ### Ports -/

section

variable {p : Port}

theorem wordsChars_append_paren {before : List Char}
    (h : before = [] ∨ ∃ cs, before = cs ++ [' ']) (cs : List Char) :
    Text.wordsChars before ++ Text.wordsChars ('(' :: cs) =
      Text.wordsChars (before ++ '(' :: cs) := by
  have hblank : Text.isBlank ' ' := by decide
  rcases h with rfl | ⟨before, rfl⟩
  · rfl
  · rw [List.append_assoc, List.singleton_append, Text.wordsChars_append_cons hblank,
      Text.wordsChars_append_cons hblank]
    exact congrArg (· ++ _) (List.append_nil _)

/-- Blanks before opening parentheses make no new words where there are blanks already. -/
theorem wordsChars_spaceParens (before cs : List Char)
    (h : (before ++ cs).IsChain fun c d => d = '(' → c = ' ') :
    Text.wordsChars (before ++ spaceParens cs) = Text.wordsChars (before ++ cs) := by
  induction cs generalizing before with
  | nil => rfl
  | cons c cs ih =>
    have hrest : Text.wordsChars (before ++ c :: spaceParens cs) =
        Text.wordsChars (before ++ c :: cs) := by
      simpa using ih (before ++ [c]) (by simpa using h)
    by_cases hc : c = '('
    · subst hc
      have hbefore : before = [] ∨ ∃ cs, before = cs ++ [' '] := by
        rcases List.eq_nil_or_concat' before with rfl | ⟨cs', d, rfl⟩
        · exact .inl rfl
        · obtain rfl : d = ' ' := (List.isChain_append.1 h).2.2 d (by simp) '(' rfl rfl
          exact .inr ⟨cs', rfl⟩
      calc Text.wordsChars (before ++ spaceParens ('(' :: cs))
          = Text.wordsChars before ++ Text.wordsChars ('(' :: spaceParens cs) :=
            Text.wordsChars_append_cons (by decide) before _
        _ = Text.wordsChars (before ++ '(' :: spaceParens cs) := wordsChars_append_paren hbefore _
        _ = Text.wordsChars (before ++ '(' :: cs) := hrest
    · simpa [spaceParens, hc] using hrest

theorem words_of_isPortType {type : String} (h : IsPortType type) :
    " ".intercalate ((Text.wordsChars (spaceParens type.toList)).map String.ofList) = type := by
  have hwords := wordsChars_spaceParens [] type.toList h.parens
  rw [List.nil_append, List.nil_append] at hwords
  rw [hwords]
  exact h.spaced

theorem Port.parse?_line (h : p.IsWritable) :
    Port.parse? p.line = some { p with description := "" } := by
  obtain ⟨hname, hdirection, htype⟩ := h
  obtain ⟨name, direction, type, description⟩ := p
  dsimp only at hname hdirection htype
  have hrest : (direction ++ " " ++ type).toList = direction.toList ++ ' ' :: type.toList := by simp
  have hdashes : NoDashes (direction ++ " " ++ type).toList := by
    rw [hrest]
    exact hdirection.noDashes.append_cons (by decide) htype.noDashes
  have hcolon : ∀ c ∈ name.toList ++ [' '], (c == ':') = false := fun c hc =>
    beq_eq_false_iff_ne.2 (hname.forall_ne_colon c hc)
  have htrimType := Text.trimChars_of_intercalate_words htype.spaced
  have hend : Text.trimChars (type.toList ++ [';']) = type.toList ++ [';'] :=
    Text.trimChars_concat (by decide) (by simpa using htype.nonempty) htrimType
  have hsemicolon : Text.dropEndWhile (· == ';') (type.toList ++ [';']) = type.toList := by
    rw [Text.dropEndWhile_append_of_pos (by decide), Text.dropEndWhile_eq_self_iff]
    intro c hc
    rw [beq_eq_false_iff_ne]
    rintro rfl
    exact htype.noSemicolon hc
  have htrimRest : Text.trimChars (' ' :: ((direction ++ " " ++ type).toList ++ [';'])) =
      direction.toList ++ ' ' :: (type.toList ++ [';']) := by
    rw [Text.trimChars_cons_of_isBlank (by decide), hrest, List.append_assoc,
      hdirection.trimChars_append]
    rfl
  rw [Port.parse?, Port.line, withoutComment_declarationLine hname hdashes,
    toList_declarationLine, splitAt?_append_cons hcolon rfl]
  simp only [withoutKeyword_of_isName hname, htrimRest,
    splitAt?_append_cons hdirection.forall_not_blank (show Text.isBlank ' ' by decide),
    Option.getD_some, hend, hsemicolon, htrimType, words_of_isPortType htype]
  simp

end

end RegAtlas.Entity
