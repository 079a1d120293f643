import Mathlib.Data.List.Induction
import RegAtlas.Proofs.Rename.Words

/-!
# Replacing names in turn

Replacing names one after the other is replacing each of them at once by the name that the later
replacements lead to. That is its own new name for every old name exactly if no new name is the old
name of a later pair.
-/

namespace RegAtlas.Mention

open Text (isBlank)

/-! ### Names that lead to names -/

section

variable {α : Type} [DecidableEq α]

/-- What stands for a name: the new name of its first pair, or the name itself. -/
def lookup (pairs : List (α × α)) (a : α) : α :=
  ((pairs.find? fun p => p.1 = a).map Prod.snd).getD a

/-- Where a name goes when the pairs are applied in turn. -/
def follow (pairs : List (α × α)) (a : α) : α :=
  pairs.foldl (fun a p => if a = p.1 then p.2 else a) a

/-- Old names with the names that they lead to. -/
def followed (pairs : List (α × α)) : List (α × α) := pairs.map fun p => (p.1, follow pairs p.1)

variable {pairs : List (α × α)} {a : α}

theorem lookup_of_forall_ne (h : ∀ p ∈ pairs, p.1 ≠ a) : lookup pairs a = a := by
  have hnone : (pairs.find? fun p => p.1 = a) = none :=
    List.find?_eq_none.2 fun p hp => by simpa using h p hp
  rw [lookup, hnone]
  rfl

theorem follow_of_forall_ne (h : ∀ p ∈ pairs, p.1 ≠ a) : follow pairs a = a := by
  induction pairs with
  | nil => rfl
  | cons p pairs ih =>
    obtain ⟨hp, hpairs⟩ := List.forall_mem_cons.1 h
    rw [follow, List.foldl_cons, if_neg (Ne.symm hp)]
    exact ih hpairs

theorem lookup_mem (h : ∃ p ∈ pairs, p.1 = a) : ∃ p ∈ pairs, p.1 = a ∧ lookup pairs a = p.2 := by
  cases hfind : pairs.find? fun p => p.1 = a with
  | none =>
    obtain ⟨p, hp, ha⟩ := h
    exact absurd ha (by simpa using List.find?_eq_none.1 hfind p hp)
  | some p =>
    exact ⟨p, List.mem_of_find?_eq_some hfind, by simpa using List.find?_some hfind,
      by rw [lookup, hfind]; rfl⟩

theorem lookup_eq_snd {f : α → α} (hf : ∀ p ∈ pairs, p.2 = f p.1) {p : α × α} (hp : p ∈ pairs) :
    lookup pairs p.1 = p.2 := by
  obtain ⟨q, hq, hfst, hlookup⟩ := lookup_mem ⟨p, hp, rfl⟩
  rw [hlookup, hf q hq, hfst, hf p hp]

theorem lookup_followed (pairs : List (α × α)) (a : α) :
    lookup (followed pairs) a = follow pairs a := by
  by_cases h : ∃ p ∈ pairs, p.1 = a
  · obtain ⟨p, hp, rfl⟩ := h
    have hf : ∀ q ∈ followed pairs, q.2 = follow pairs q.1 := by
      rintro _ hq
      obtain ⟨q, -, rfl⟩ := List.mem_map.1 hq
      rfl
    exact lookup_eq_snd hf (p := (p.1, follow pairs p.1)) (List.mem_map_of_mem hp)
  · have hne : ∀ p ∈ pairs, p.1 ≠ a := fun p hp heq => h ⟨p, hp, heq⟩
    rw [follow_of_forall_ne hne]
    refine lookup_of_forall_ne fun _ hmem => ?_
    obtain ⟨q, hq, rfl⟩ := List.mem_map.1 hmem
    exact hne q hq

/-- An old name leads to some new name. -/
theorem follow_mem (h : ∃ p ∈ pairs, p.1 = a) : ∃ p ∈ pairs, follow pairs a = p.2 := by
  induction pairs generalizing a with
  | nil => simp at h
  | cons p pairs ih =>
    have hlater : ∀ b, (∃ q ∈ pairs, q.1 = b) → follow (p :: pairs) a = follow pairs b →
        ∃ q ∈ p :: pairs, follow (p :: pairs) a = q.2 := by
      intro b hb heq
      obtain ⟨q, hq, hfollow⟩ := ih hb
      exact ⟨q, List.mem_cons_of_mem p hq, heq.trans hfollow⟩
    by_cases ha : a = p.1
    · have hstep : follow (p :: pairs) a = follow pairs p.2 := by
        rw [follow, List.foldl_cons, if_pos ha]
        rfl
      by_cases hnew : ∃ q ∈ pairs, q.1 = p.2
      · exact hlater p.2 hnew hstep
      · refine ⟨p, List.mem_cons_self, hstep.trans (follow_of_forall_ne ?_)⟩
        exact fun q hq heq => hnew ⟨q, hq, heq⟩
    · have hstep : follow (p :: pairs) a = follow pairs a := by
        rw [follow, List.foldl_cons, if_neg ha]
        rfl
      refine hlater a ?_ hstep
      obtain ⟨q, hq, heq⟩ := h
      obtain rfl | hq := List.mem_cons.1 hq
      · exact absurd heq.symm ha
      · exact ⟨q, hq, heq⟩

/-- Every old name leads to its own new name exactly if no new name is the old name of a later pair.
-/
theorem follow_eq_snd_iff {f : α → α} (hf : ∀ p ∈ pairs, p.2 = f p.1)
    (hne : ∀ p ∈ pairs, p.2 ≠ p.1) :
    (∀ p ∈ pairs, follow pairs p.1 = p.2) ↔ pairs.Pairwise fun p q => p.2 ≠ q.1 := by
  constructor
  · intro h
    -- From the end: the last pair leads every name away from its old name.
    induction pairs using List.reverseRec with
    | nil => exact .nil
    | append_singleton pairs q ih =>
      have hq : q.2 ≠ q.1 := hne q (by simp)
      have hstep : ∀ a, follow (pairs ++ [q]) a =
          if follow pairs a = q.1 then q.2 else follow pairs a := fun a => by
        rw [follow, List.foldl_append]
        rfl
      have haway : ∀ p ∈ pairs, p.2 ≠ q.1 := by
        intro p hp
        rw [← h p (List.mem_append_left _ hp), hstep]
        split
        · exact hq
        · assumption
      have hkept : ∀ p ∈ pairs, follow pairs p.1 = p.2 := by
        intro p hp
        obtain ⟨r, hr, hfollow⟩ := follow_mem ⟨p, hp, rfl⟩
        rw [← h p (List.mem_append_left _ hp), hstep, if_neg (hfollow ▸ haway r hr)]
      refine List.pairwise_append.2 ⟨ih (fun p hp => hf p (List.mem_append_left _ hp))
        (fun p hp => hne p (List.mem_append_left _ hp)) hkept, List.pairwise_singleton _ _, ?_⟩
      exact fun p hp r hr => List.mem_singleton.1 hr ▸ haway p hp
  · intro h
    induction h with
    | nil => simp
    | @cons p pairs hp _ ih =>
      intro q hq
      rw [follow, List.foldl_cons]
      split
      case isTrue heq =>
        have hnew : q.2 = p.2 := by rw [hf q hq, heq, hf p List.mem_cons_self]
        rw [hnew]
        exact follow_of_forall_ne fun r hr => (hp r hr).symm
      case isFalse hdiff =>
        obtain rfl | hq := List.mem_cons.1 hq
        · exact absurd rfl hdiff
        · exact ih (fun p hp => hf p (List.mem_cons_of_mem _ hp))
            (fun p hp => hne p (List.mem_cons_of_mem _ hp)) q hq

end

/-! ### Replacing names is changing words -/

/-- Old names that are words, with new names that are words or have no characters. -/
def Names (pairs : List (List Char × List Char)) : Prop :=
  ∀ p ∈ pairs, p.1 ≠ [] ∧ IsJoined p.1 ∧ IsJoined p.2

section

variable {pairs : List (List Char × List Char)} {last last' : Option Char} {w rest cs : List Char}

theorem Names.keepsWords_lookup (h : Names pairs) : KeepsWords (lookup pairs) := by
  intro w hw
  by_cases hold : ∃ p ∈ pairs, p.1 = w
  · obtain ⟨p, hp, -, hlookup⟩ := lookup_mem hold
    exact hlookup ▸ (h p hp).2.2
  · rwa [lookup_of_forall_ne fun p hp heq => hold ⟨p, hp, heq⟩]

theorem Names.keepsWords_follow (h : Names pairs) : KeepsWords (follow pairs) := by
  intro w hw
  by_cases hold : ∃ p ∈ pairs, p.1 = w
  · obtain ⟨p, hp, hfollow⟩ := follow_mem hold
    exact hfollow ▸ (h p hp).2.2
  · rwa [follow_of_forall_ne fun p hp heq => hold ⟨p, hp, heq⟩]

theorem Names.follow_nil (h : Names pairs) : follow pairs [] = [] :=
  follow_of_forall_ne fun p hp => (h p hp).1

theorem Names.names_followed (h : Names pairs) : Names (followed pairs) := by
  intro _ hmem
  obtain ⟨p, hp, rfl⟩ := List.mem_map.1 hmem
  obtain ⟨hne, hold, -⟩ := h p hp
  exact ⟨hne, hold, h.keepsWords_follow p.1 hold⟩

theorem Names.find?_of_isCut (h : Names pairs) (hcs : IsCut cs) :
    (pairs.find? fun p => mentionsHead p.1 last cs) = none := by
  refine List.find?_eq_none.2 fun p hp => ?_
  simp [mentionsHead_of_isCut (h p hp).1 (h p hp).2.1 hcs]

theorem Names.substituteFrom_of_isCut (h : Names pairs) (hcs : IsCut cs)
    (last last' : Option Char) : substituteFrom pairs last cs = substituteFrom pairs last' cs := by
  cases cs with
  | nil => simp [substituteFrom]
  | cons c cs => simp only [substituteFrom, h.find?_of_isCut hcs]

/-- A word is replaced if it is mentioned, and kept otherwise. -/
theorem Names.substituteFrom_word (h : Names pairs) (hw : IsWord w rest) :
    substituteFrom pairs last (w ++ rest) =
      changeWord (lookup pairs) last w rest ++ substituteFrom pairs none rest := by
  have hfind : (pairs.find? fun p => mentionsHead p.1 last (w ++ rest)) =
      if last.any isBlank && endsWord rest.head? then pairs.find? fun p => p.1 = w
      else none := by
    have hmentions : ∀ p ∈ pairs, mentionsHead p.1 last (w ++ rest) =
        ((last.any isBlank && endsWord rest.head?) && decide (p.1 = w)) := fun p hp =>
      mentionsHead_word (h p hp).2.1 hw
    rw [← List.head?_filter, List.filter_congr hmentions, List.head?_filter]
    split <;> simp_all
  obtain ⟨c, w, rfl⟩ := List.exists_cons_of_ne_nil hw.ne_nil
  obtain ⟨hc, hshown⟩ := List.forall_mem_cons.1 hw.joined.shown
  have hlast : (some c).any isBlank = false := hc
  have hkept : c :: substituteFrom pairs (some c) (w ++ rest) =
      c :: w ++ substituteFrom pairs none rest := by
    rw [substituteFrom_append hlast hshown, h.substituteFrom_of_isCut hw.cut _ none,
      List.cons_append]
  rw [List.cons_append, substituteFrom, ← List.cons_append, hfind, changeWord]
  by_cases hbounded : last.any isBlank && endsWord rest.head?
  · rw [if_pos hbounded, if_pos hbounded, lookup]
    cases hfst : pairs.find? fun p => p.1 = c :: w with
    | none => exact hkept
    | some p =>
      obtain ⟨old, new⟩ := p
      obtain rfl : old = c :: w := by simpa using List.find?_some hfst
      have hdrop : (w ++ rest).drop ((c :: w).length - 1) = rest := by simp
      simp only [hdrop, h.substituteFrom_of_isCut hw.cut _ none]
      rfl
  · rw [if_neg hbounded, if_neg hbounded]
    exact hkept

theorem Names.substituteFrom_eq (h : Names pairs) (last : Option Char) (cs : List Char) :
    substituteFrom pairs last cs = mapWordsFrom (lookup pairs) last cs := by
  induction last, cs using words_induction with
  | nil last => simp [substituteFrom, mapWordsFrom]
  | gap last c cs hc ih =>
    rw [substituteFrom, h.find?_of_isCut (isCut_cons.2 hc), mapWordsFrom_gap hc, ← ih]
  | word last w rest hw ih => rw [h.substituteFrom_word hw, mapWordsFrom_word hw, ih]

end

section

variable {pairs : List (String × String)} {text : String}

theorem Names.replaces {pairs : List (String × String)} (h : Names (charPairs pairs)) :
    Replacing pairs := by
  intro p hp
  obtain ⟨hne, hold, hnew⟩ := h _ (List.mem_map_of_mem hp)
  refine ⟨hne, hold.shown, hnew.shown, .inr fun c hc => ?_⟩
  exact (joins_iff.1 (hold c (List.mem_of_mem_head? hc))).2

theorem Names.toList_substitute (h : Names (charPairs pairs)) (text : String) :
    (substitute pairs text).toList =
      mapWordsFrom (lookup (charPairs pairs)) none text.toList := by
  rw [substitute, String.toList_ofList, h.substituteFrom_eq]

theorem follow_cons {α : Type} [DecidableEq α] (p : α × α) (pairs : List (α × α)) :
    follow (p :: pairs) = follow pairs ∘ lookup [p] := by
  funext a
  rw [follow, List.foldl_cons, Function.comp_apply, lookup, List.find?_singleton]
  by_cases ha : a = p.1
  · rw [if_pos ha, if_pos (by simp [ha])]
    rfl
  · rw [if_neg ha, if_neg (by simpa using Ne.symm ha)]
    rfl

/-- Replacing names in turn changes every word once, to the name that it leads to. -/
theorem Names.toList_foldl_substitute (h : Names (charPairs pairs)) (text : String) :
    (pairs.foldl (fun text p => substitute [p] text) text).toList =
      mapWordsFrom (follow (charPairs pairs)) none text.toList := by
  induction pairs generalizing text with
  | nil => exact (mapWordsFrom_id none text.toList).symm
  | cons p pairs ih =>
    obtain ⟨hp, hpairs⟩ := List.forall_mem_cons.1 h
    have hone : Names (charPairs [p]) := List.forall_mem_singleton.2 hp
    have hrest : Names (charPairs pairs) := hpairs
    rw [List.foldl_cons, ih hrest, hone.toList_substitute,
      mapWordsFrom_mapWordsFrom hone.keepsWords_lookup hrest.follow_nil]
    exact congrArg (mapWordsFrom · none text.toList) (follow_cons _ _).symm

theorem follow_map {α β : Type} [DecidableEq α] [DecidableEq β] {g : α → β}
    (hg : Function.Injective g) (pairs : List (α × α)) (a : α) :
    follow (pairs.map (Prod.map g g)) (g a) = g (follow pairs a) := by
  induction pairs generalizing a with
  | nil => rfl
  | cons p pairs ih =>
    rw [List.map_cons, follow, follow, List.foldl_cons, List.foldl_cons, Prod.map_fst,
      Prod.map_snd]
    by_cases ha : a = p.1
    · rw [if_pos (congrArg g ha), if_pos ha]
      exact ih p.2
    · rw [if_neg fun heq => ha (hg heq), if_neg ha]
      exact ih a

theorem charPairs_followed (pairs : List (String × String)) :
    charPairs (followed pairs) = followed (charPairs pairs) := by
  rw [charPairs, charPairs, followed, followed, List.map_map, List.map_map]
  have hinj : Function.Injective String.toList := fun _ _ => String.toList_injective
  exact List.map_congr_left fun p _ => Prod.ext rfl (follow_map hinj pairs p.1).symm

theorem Names.toList_substitute_followed (h : Names (charPairs pairs)) (text : String) :
    (substitute (followed pairs) text).toList =
      mapWordsFrom (follow (charPairs pairs)) none text.toList := by
  have hfollowed : Names (charPairs (followed pairs)) := charPairs_followed pairs ▸ h.names_followed
  rw [hfollowed.toList_substitute, charPairs_followed, funext (lookup_followed (charPairs pairs))]

/-- Replacing names in turn is replacing each old name at once by the name that it leads to. -/
theorem Names.getD_replaceAll? (h : Names (charPairs pairs)) (text : String) :
    (replaceAll? pairs text).getD text = substitute (followed pairs) text := by
  rw [← String.toList_inj, Mention.getD_replaceAll? h.replaces, h.toList_foldl_substitute,
    h.toList_substitute_followed]

/-- The names that old names lead to give the same text as their new names exactly if they are the
same for every old name that the text mentions. -/
theorem Names.substitute_followed_iff (h : Names (charPairs pairs)) {f : String → String}
    (hf : ∀ p ∈ pairs, p.2 = f p.1) :
    substitute (followed pairs) text = substitute pairs text ↔
      ∀ p ∈ pairs, Mentions p.1 text → follow pairs p.1 = p.2 := by
  have hlookup : ∀ p ∈ pairs, lookup (charPairs pairs) p.1.toList = p.2.toList := by
    intro p hp
    refine lookup_eq_snd (f := fun cs => (f (String.ofList cs)).toList) (fun _ hmem => ?_)
      (List.mem_map_of_mem hp)
    obtain ⟨q, hq, rfl⟩ := List.mem_map.1 hmem
    simp [hf q hq]
  have hsame : ∀ p ∈ pairs, follow (charPairs pairs) p.1.toList =
      lookup (charPairs pairs) p.1.toList ↔ follow pairs p.1 = p.2 := by
    intro p hp
    have hinj : Function.Injective String.toList := fun _ _ => String.toList_injective
    rw [hlookup p hp, charPairs, follow_map hinj, String.toList_inj]
  rw [← String.toList_inj, h.toList_substitute_followed, h.toList_substitute,
    mapWordsFrom_eq_iff h.keepsWords_follow h.keepsWords_lookup]
  constructor
  · intro hall p hp hmention
    obtain ⟨hne, hjoined, -⟩ := h _ (List.mem_map_of_mem hp)
    exact (hsame p hp).1 (hall _ hne hjoined (mentions_iff.1 hmention))
  · intro hall name hne hjoined hmention
    by_cases hold : ∃ p ∈ pairs, p.1.toList = name
    · obtain ⟨p, hp, rfl⟩ := hold
      exact (hsame p hp).2 (hall p hp (mentions_iff.2 hmention))
    · have hnot : ∀ p ∈ charPairs pairs, p.1 ≠ name := by
        intro _ hmem
        obtain ⟨p, hp, rfl⟩ := List.mem_map.1 hmem
        exact fun heq => hold ⟨p, hp, heq⟩
      rw [follow_of_forall_ne hnot, lookup_of_forall_ne hnot]

end

end RegAtlas.Mention
