import ChangeTracking.Proofs.Steps
import ChangeTracking.Tracking.Merge

/-!
# Declarations and their join

Merging visits declarations one after another: the directive of a source, then those of its
elements that the database entity stores.  At every slot it holds the join of what was declared
there so far, with the source that was the first to declare anything; it fails at the first
declaration of paths that differ from those it holds.
-/

namespace ChangeTracking.Tracking

open Schema (Directive Element Entity)

/-! ## Slots -/

/-- What a directive stands at: the entity itself, or an element of it. -/
inductive Slot
  | entity
  | element (name : String)
  deriving DecidableEq, Repr

/-- The name of the slot in a conflict. -/
def Slot.label : Slot → String
  | entity => entitySlot
  | element name => name

/-- What was merged at a slot so far. -/
def Merged.at? (merged : Merged) : Slot → Option Declared
  | .entity => merged.entity
  | .element name => merged.elements.get? name

/-- A directive at a slot, and the source that declares it. -/
structure Declaration where
  slot : Slot
  directive : Directive
  source : String

/-- The directive is declared at the slot. -/
def DeclaredAmong (said : List Declaration) (slot : Slot) (directive : Directive) : Prop :=
  ∃ x ∈ said, x.slot = slot ∧ x.directive = directive

/-- One more declaration declares its own directive at its own slot. -/
theorem declaredAmong_concat_iff {said : List Declaration} {x : Declaration} {slot : Slot}
    {directive : Directive} : DeclaredAmong (said ++ [x]) slot directive ↔
      DeclaredAmong said slot directive ∨ x.slot = slot ∧ x.directive = directive := by
  simp [DeclaredAmong, or_and_right, exists_or]

/-! ## Joins -/

/-- The join of what is declared: paths, all of them the same, come before markers, and an enabled
marker comes before a disabled one. -/
inductive IsJoin (declared : Directive → Prop) : Option Directive → Prop
  | paths {list : List String} (hlist : declared (.paths list))
      (hsame : ∀ other, declared (.paths other) → other = list) :
      IsJoin declared (some (.paths list))
  | enabled (htrue : declared (.marker true)) (hpaths : ∀ list, ¬ declared (.paths list)) :
      IsJoin declared (some (.marker true))
  | disabled (hfalse : declared (.marker false)) (htrue : ¬ declared (.marker true))
      (hpaths : ∀ list, ¬ declared (.paths list)) : IsJoin declared (some (.marker false))
  | absent (hnothing : ∀ directive, ¬ declared directive) : IsJoin declared none

namespace IsJoin

variable {declared declared' : Directive → Prop} {joined : Option Directive}

theorem congr (h : IsJoin declared joined) (hiff : ∀ directive, declared directive ↔
    declared' directive) : IsJoin declared' joined := by
  have heq : declared = declared' := funext fun directive => propext (hiff directive)
  rwa [← heq]

/-- Paths that are declared are what was joined. -/
theorem eq_paths (h : IsJoin declared joined) {list : List String}
    (hlist : declared (.paths list)) : joined = some (.paths list) := by
  cases h with
  | paths hother hsame => rw [hsame list hlist]
  | enabled htrue hpaths => exact absurd hlist (hpaths list)
  | disabled hfalse htrue hpaths => exact absurd hlist (hpaths list)
  | absent hnothing => exact absurd hlist (hnothing _)

theorem declared_of_eq (h : IsJoin declared joined) {directive : Directive}
    (heq : joined = some directive) : declared directive := by
  cases h with
  | paths hlist hsame => cases heq; exact hlist
  | enabled htrue hpaths => cases heq; exact htrue
  | disabled hfalse htrue hpaths => cases heq; exact hfalse
  | absent hnothing => cases heq

/-- Joined directives have one list of paths at most. -/
theorem paths_unique (h : IsJoin declared joined) {a b : List String} (ha : declared (.paths a))
    (hb : declared (.paths b)) : a = b :=
  Directive.paths.inj (Option.some.inj ((h.eq_paths ha).symm.trans (h.eq_paths hb)))

/-- There is one join at most. -/
theorem unique {joined' : Option Directive} (h : IsJoin declared joined)
    (h' : IsJoin declared joined') : joined = joined' := by
  cases h with
  | paths hlist hsame => exact (h'.eq_paths hlist).symm
  | enabled htrue hpaths =>
      cases h' with
      | paths hlist hsame => exact absurd hlist (hpaths _)
      | enabled htrue' hpaths' => rfl
      | disabled hfalse htrue' hpaths' => exact absurd htrue htrue'
      | absent hnothing => exact absurd htrue (hnothing _)
  | disabled hfalse htrue hpaths =>
      cases h' with
      | paths hlist hsame => exact absurd hlist (hpaths _)
      | enabled htrue' hpaths' => exact absurd htrue' htrue
      | disabled hfalse' htrue' hpaths' => rfl
      | absent hnothing => exact absurd hfalse (hnothing _)
  | absent hnothing =>
      cases h'' : joined' with
      | none => rfl
      | some directive => exact absurd (h'.declared_of_eq h'') (hnothing _)

end IsJoin

/-- Paths are put before markers. -/
theorem isJoin_or_paths {declared : Directive → Prop} {list : List String}
    (hsame : ∀ other, declared (.paths other) → other = list) :
    IsJoin (fun directive => declared directive ∨ directive = .paths list)
      (some (.paths list)) := by
  refine .paths (.inr rfl) fun other hother => ?_
  rcases hother with hother | hother
  · exact hsame other hother
  · exact Directive.paths.inj hother

theorem isJoin_first {declared : Directive → Prop} (h : ∀ directive, ¬ declared directive)
    (next : Directive) :
    IsJoin (fun directive => declared directive ∨ directive = next) (some next) := by
  cases next with
  | paths list => exact isJoin_or_paths fun other hother => absurd hother (h _)
  | marker enabled =>
      cases enabled with
      | true => exact .enabled (.inr rfl) (by simp [h])
      | false => exact .disabled (.inr rfl) (by simp [h]) (by simp [h])

/-! ## One slot -/

section Combine

variable {name label source : String} {previous : Option Declared} {next : Directive}
  {result : Declared}

/-- What a slot holds once one more directive of the source is put there. -/
inductive Combined (source : String) : Option Declared → Directive → Declared → Prop
  | first {next : Directive} : Combined source none next ⟨next, source⟩
  | markers {a b : Bool} {first : String} :
      Combined source (some ⟨.marker a, first⟩) (.marker b) ⟨.marker (a || b), first⟩
  | raised {a : Bool} {list : List String} {first : String} :
      Combined source (some ⟨.marker a, first⟩) (.paths list) ⟨.paths list, first⟩
  | kept {list : List String} {b : Bool} {first : String} :
      Combined source (some ⟨.paths list, first⟩) (.marker b) ⟨.paths list, first⟩
  | same {list : List String} {first : String} :
      Combined source (some ⟨.paths list, first⟩) (.paths list) ⟨.paths list, first⟩

theorem combined_of_combine (h : combine name label previous next source = .ok result) :
    Combined source previous next result := by
  unfold combine at h
  split at h
  · cases h
    exact .first
  · rename_i declared
    obtain ⟨directive, first⟩ := declared
    split at h
    · rename_i hdirective
      cases hdirective
      cases h
      exact .markers
    · rename_i hdirective
      cases hdirective
      cases h
      exact .raised
    · rename_i hdirective
      cases hdirective
      cases h
      exact .kept
    · rename_i hdirective
      cases hdirective
      split at h
      · rename_i heq
        cases heq
        cases h
        exact .same
      · cases h

/-- Only paths that differ from those that are there cannot be combined. -/
theorem combine_eq_error {fault : Fault}
    (h : combine name label previous next source = .error fault) :
    ∃ a b first, previous = some ⟨.paths a, first⟩ ∧ next = .paths b ∧ a ≠ b ∧
      fault = .conflictingDirectives name label first (Directive.paths a).describe source
        (Directive.paths b).describe := by
  unfold combine at h
  split at h
  · cases h
  · rename_i declared
    obtain ⟨directive, first⟩ := declared
    split at h
    · cases h
    · cases h
    · cases h
    · rename_i a b hdirective
      cases hdirective
      split at h
      · cases h
      · rename_i hne
        cases h
        exact ⟨a, b, first, rfl, rfl, hne, rfl⟩

/-- What is combined is the join of what was there and of what is put there. -/
theorem Combined.isJoin {declared : Directive → Prop} (hcombined : Combined source previous next result)
    (h : IsJoin declared (previous.map (·.directive))) :
    IsJoin (fun directive => declared directive ∨ directive = next) (some result.directive) := by
  -- Paths are joined with markers of either kind, but with other paths only if they are the same.
  cases hcombined with
  | first =>
      cases h with
      | absent hnothing => exact isJoin_first hnothing next
  | @markers a b =>
      cases h with
      | enabled htrue hpaths => exact .enabled (.inl htrue) (by simp [hpaths])
      | disabled hfalse htrue hpaths =>
          cases b with
          | true => exact .enabled (.inr rfl) (by simp [hpaths])
          | false => exact .disabled (.inl hfalse) (by simp [htrue]) (by simp [hpaths])
  | raised =>
      cases h with
      | enabled htrue hpaths =>
          exact isJoin_or_paths fun other hother => absurd hother (hpaths other)
      | disabled hfalse htrue hpaths =>
          exact isJoin_or_paths fun other hother => absurd hother (hpaths other)
  | kept =>
      cases h with
      | paths hlist hsame => exact .paths (.inl hlist) (by simpa using hsame)
  | same =>
      cases h with
      | paths hlist hsame => exact isJoin_or_paths hsame

/-- A slot keeps the source that was the first to declare anything there. -/
theorem Combined.source_eq (hcombined : Combined source previous next result) :
    result.source = (previous.map (·.source)).getD source := by
  cases hcombined <;> rfl

end Combine

/-! ## Steps of merging -/

/-- What was merged so far is the join of what was said, and every slot has the source of the
first declaration there. -/
structure Merged.Joins (merged : Merged) (said : List Declaration) : Prop where
  isJoin : ∀ slot, IsJoin (DeclaredAmong said slot) ((merged.at? slot).map (·.directive))
  source_eq : ∀ slot, (merged.at? slot).map (·.source) =
    (said.find? (·.slot = slot)).map (·.source)

/-- The fault tells that the declaration has other paths than were said at its slot, and names the
source of the first declaration there. -/
def Reports (name : String) (said : List Declaration) (next : Declaration) (fault : Fault) : Prop :=
  ∃ first a b, said.find? (·.slot = next.slot) = some first ∧
    IsJoin (DeclaredAmong said next.slot) (some (.paths a)) ∧ next.directive = .paths b ∧ a ≠ b ∧
    fault = .conflictingDirectives name next.slot.label first.source
      (Directive.paths a).describe next.source (Directive.paths b).describe

/-- The step merges the declarations one after another, and fails only at one that has other
paths than were said before it. -/
structure Merges (name : String) (step : Merged → Except Fault Merged) (new : List Declaration) :
    Prop where
  ok : ∀ {merged merged' : Merged} {said : List Declaration}, merged.Joins said →
    step merged = .ok merged' → merged'.Joins (said ++ new)
  error : ∀ {merged : Merged} {said : List Declaration} {fault : Fault}, merged.Joins said →
    step merged = .error fault → ∃ before next after, new = before ++ next :: after ∧
      Reports name (said ++ before) next fault

namespace Merges

variable {name : String}

/-- What leaves all slots as they are merges no declaration. -/
theorem keep {f : Merged → Merged} (hf : ∀ merged slot, (f merged).at? slot = merged.at? slot) :
    Merges name (fun merged => .ok (f merged)) [] where
  ok := by
    intro merged merged' said h heq
    cases heq
    rw [List.append_nil]
    exact ⟨fun slot => by rw [hf]; exact h.isJoin slot, fun slot => by rw [hf]; exact h.source_eq slot⟩
  error _ heq := by cases heq

theorem skip : Merges name (fun merged => .ok merged) [] :=
  keep (f := id) fun _ _ => rfl

theorem bind {f g : Merged → Except Fault Merged} {new new' : List Declaration}
    (hf : Merges name f new) (hg : Merges name g new') :
    Merges name (fun merged => f merged >>= g) (new ++ new') where
  ok h heq := by
    obtain ⟨next, hnext, heq⟩ := bind_eq_ok.mp heq
    rw [← List.append_assoc]
    exact hg.ok (hf.ok h hnext) heq
  error h heq := by
    rcases bind_eq_error.mp heq with hfirst | ⟨middle, hmiddle, hsecond⟩
    · obtain ⟨before, next, after, rfl, hreports⟩ := hf.error h hfirst
      exact ⟨before, next, after ++ new', by simp, hreports⟩
    · obtain ⟨before, next, after, rfl, hreports⟩ := hg.error (hf.ok h hmiddle) hsecond
      exact ⟨new ++ before, next, after, by simp, by rwa [← List.append_assoc]⟩

theorem foldlM {α : Type} {f : Merged → α → Except Fault Merged} {new : α → List Declaration}
    (hf : ∀ x, Merges name (f · x) (new x)) (xs : List α) :
    Merges name (fun merged => xs.foldlM f merged) (xs.flatMap new) := by
  induction xs with
  | nil => exact skip
  | cons x xs ih =>
      simp only [List.foldlM_cons, List.flatMap_cons]
      exact (hf x).bind ih

/-- A declaration is merged into its slot, and leaves the others as they are. -/
theorem slot (x : Declaration) {put : Merged → Declared → Merged}
    (hput : ∀ merged declared slot, (put merged declared).at? slot =
      if slot = x.slot then some declared else merged.at? slot) :
    Merges name (fun merged =>
      (combine name x.slot.label (merged.at? x.slot) x.directive x.source).map (put merged)) [x] where
  ok := by
    intro merged merged' said h heq
    obtain ⟨declared, hdeclared, rfl⟩ := map_eq_ok.mp heq
    have hcombined := combined_of_combine hdeclared
    -- Its own slot takes the declaration in; the other slots keep what they have.
    constructor
    · intro slot
      rw [hput]
      by_cases hslot : slot = x.slot
      · subst hslot
        rw [if_pos rfl, Option.map_some]
        refine (hcombined.isJoin (h.isJoin x.slot)).congr fun directive => ?_
        rw [declaredAmong_concat_iff, and_iff_right rfl, eq_comm (a := directive)]
      · rw [if_neg hslot]
        refine (h.isJoin slot).congr fun directive => ?_
        rw [declaredAmong_concat_iff, or_iff_left fun hx => hslot hx.1.symm]
    · intro slot
      rw [hput, List.find?_append]
      by_cases hslot : slot = x.slot
      · subst hslot
        rw [if_pos rfl, Option.map_some, hcombined.source_eq, h.source_eq]
        cases said.find? (·.slot = x.slot) <;> simp
      · rw [if_neg hslot, h.source_eq]
        simp [Ne.symm hslot]
  error := by
    intro merged said fault h heq
    obtain ⟨a, b, first, hprevious, hnext, hne, rfl⟩ := combine_eq_error (map_eq_error.mp heq)
    have hsource := h.source_eq x.slot
    rw [hprevious, Option.map_some, eq_comm, Option.map_eq_some_iff] at hsource
    obtain ⟨first', hfirst, rfl⟩ := hsource
    have hjoin : IsJoin (DeclaredAmong said x.slot) (some (.paths a)) := by
      simpa [hprevious] using h.isJoin x.slot
    exact ⟨[], x, [], rfl, first', a, b, by simpa using hfirst, by simpa using hjoin, hnext, hne,
      rfl⟩

end Merges

/-! ## Sources -/

/-- What an entity declares of itself. -/
def entityDeclarations (source : Entity) : List Declaration :=
  source.directive.toList.map fun directive => ⟨.entity, directive, source.name⟩

/-- What an element of the source declares, provided that the entity stores it. -/
def elementDeclarations (db : Entity) (source : String) (element : Element) : List Declaration :=
  if (db.element? element.name).isSome then
    element.directive.toList.map fun directive => ⟨.element element.name, directive, source⟩
  else []

/-- What the source declares at slots of the entity, one after another. -/
def declarations (db source : Entity) : List Declaration :=
  entityDeclarations source ++ source.elements.flatMap (elementDeclarations db source.name)

/-- The source declares the directive at the slot, which is the entity or an element that the
entity stores. -/
inductive Declares (db source : Entity) : Slot → Directive → Prop
  | entity {directive : Directive} (h : source.directive = some directive) :
      Declares db source .entity directive
  | element {element : Element} {directive : Directive} (hmem : element ∈ source.elements)
      (hstored : (db.element? element.name).isSome = true)
      (h : element.directive = some directive) :
      Declares db source (.element element.name) directive

theorem mem_entityDeclarations {source : Entity} {x : Declaration} :
    x ∈ entityDeclarations source ↔
      x.slot = .entity ∧ source.directive = some x.directive ∧ x.source = source.name := by
  obtain ⟨slot, directive, name⟩ := x
  simp [entityDeclarations, eq_comm, and_left_comm]

theorem mem_elementDeclarations {db : Entity} {source : String} {element : Element}
    {x : Declaration} :
    x ∈ elementDeclarations db source element ↔
      x.slot = .element element.name ∧ (db.element? element.name).isSome = true ∧
        element.directive = some x.directive ∧ x.source = source := by
  obtain ⟨slot, directive, name⟩ := x
  rw [elementDeclarations]
  split
  · rename_i hstored
    simp [hstored, eq_comm, and_left_comm]
  · rename_i hstored
    simp [hstored]

/-- Among the declarations of a source is what it declares. -/
theorem declaredAmong_declarations_iff {db source : Entity} {slot : Slot} {directive : Directive} :
    DeclaredAmong (declarations db source) slot directive ↔ Declares db source slot directive := by
  simp only [DeclaredAmong, declarations, List.mem_append, List.mem_flatMap,
    mem_entityDeclarations, mem_elementDeclarations]
  constructor
  · rintro ⟨x, ⟨hslot, hx, -⟩ | ⟨element, hmem, hslot, hstored, hx, -⟩, rfl, rfl⟩
    · rw [hslot]
      exact .entity hx
    · rw [hslot]
      exact .element hmem hstored hx
  · intro h
    cases h with
    | entity h => exact ⟨⟨.entity, directive, source.name⟩, .inl ⟨rfl, h, rfl⟩, rfl, rfl⟩
    | @element element directive hmem hstored h =>
        exact ⟨⟨.element element.name, directive, source.name⟩,
          .inr ⟨element, hmem, rfl, hstored, h, rfl⟩, rfl, rfl⟩

theorem source_of_mem_declarations {db source : Entity} {x : Declaration}
    (h : x ∈ declarations db source) : x.source = source.name := by
  rw [declarations, List.mem_append, List.mem_flatMap] at h
  rcases h with h | ⟨element, -, h⟩
  · exact (mem_entityDeclarations.mp h).2.2
  · exact (mem_elementDeclarations.mp h).2.2.2

/-! ## Merging of sources -/

theorem merges_entityLevel (db source : Entity) :
    Merges db.name (mergeEntityLevel db source) (entityDeclarations source) := by
  unfold mergeEntityLevel entityDeclarations
  cases hdirective : source.directive with
  | none => exact Merges.skip
  | some next =>
      refine Merges.slot ⟨.entity, next, source.name⟩ fun merged declared slot => ?_
      cases slot with
      | entity => rfl
      | element name => rfl

theorem merges_element (db : Entity) (source : String) (element : Element) :
    Merges db.name (mergeElement db source · element) (elementDeclarations db source element) := by
  unfold mergeElement elementDeclarations
  cases hdirective : element.directive with
  | none => simpa using Merges.skip
  | some next =>
      cases hstored : db.element? element.name with
      | none => simpa using Merges.skip
      | some stored =>
          refine Merges.slot ⟨.element element.name, next, source⟩ fun merged declared slot => ?_
          cases slot with
          | entity => rfl
          | element name => simp [Merged.at?, NameMap.get?_insert]

theorem merges_source (db source : Entity) :
    Merges db.name (mergeSource db · source) (declarations db source) := by
  have hservice : Merges db.name (fun merged => .ok (if source.isProjection && merged.service.isNone
      && source.isAnnotated then { merged with service := some source.name } else merged)) [] := by
    refine Merges.keep fun merged slot => ?_
    split
    · cases slot <;> rfl
    · rfl
  have hsource := (merges_entityLevel db source).bind
    ((Merges.foldlM (merges_element db source.name) source.elements).bind hservice)
  rwa [List.append_nil] at hsource

/-! ## Runs -/

/-- Merging from the start. -/
def mergeAll (db : Entity) (sources : List Entity) : Except Fault Merged :=
  sources.foldlM (mergeSource db) ⟨none, NameMap.empty, none⟩

theorem joins_start : (⟨none, NameMap.empty, none⟩ : Merged).Joins [] := by
  constructor
  · intro slot
    cases slot <;> exact .absent (by simp [DeclaredAmong])
  · intro slot
    cases slot <;> rfl

variable {db : Entity} {sources : List Entity}

/-- Among the declarations of several sources is what one of them declares. -/
theorem declaredAmong_flatMap_iff {slot : Slot} {directive : Directive} :
    DeclaredAmong (sources.flatMap (declarations db)) slot directive ↔
      ∃ source ∈ sources, Declares db source slot directive := by
  simp only [← declaredAmong_declarations_iff, DeclaredAmong, List.mem_flatMap]
  constructor
  · rintro ⟨x, ⟨source, hsource, hx⟩, hdeclared⟩
    exact ⟨source, hsource, x, hx, hdeclared⟩
  · rintro ⟨source, hsource, x, hx, hdeclared⟩
    exact ⟨x, ⟨source, hsource, hx⟩, hdeclared⟩

/-- The source declares something at the slot, and no earlier one does. -/
def IsFirst (db : Entity) (sources : List Entity) (slot : Slot) (source : Entity) : Prop :=
  ∃ earlier later, sources = earlier ++ source :: later ∧
    (∃ directive, Declares db source slot directive) ∧
    ∀ e ∈ earlier, ∀ directive, ¬ Declares db e slot directive

theorem IsFirst.mem {slot : Slot} {source : Entity} (h : IsFirst db sources slot source) :
    source ∈ sources := by
  obtain ⟨earlier, later, rfl, -, -⟩ := h
  simp

/-- The first declaration at a slot is one of the first source to declare something there. -/
theorem exists_isFirst_of_find? {slot : Slot} {x : Declaration}
    (h : (sources.flatMap (declarations db)).find? (·.slot = slot) = some x) :
    ∃ source, IsFirst db sources slot source ∧ Declares db source slot x.directive ∧
      x.source = source.name := by
  rw [List.find?_flatMap, List.findSome?_eq_some_iff] at h
  obtain ⟨earlier, source, later, rfl, hfind, hearlier⟩ := h
  have hmem := List.mem_of_find?_eq_some hfind
  have hslot : x.slot = slot := by simpa using List.find?_some hfind
  have hdeclares : Declares db source slot x.directive :=
    declaredAmong_declarations_iff.mp ⟨x, hmem, hslot, rfl⟩
  refine ⟨source, ⟨earlier, later, rfl, ⟨_, hdeclares⟩, fun e he directive hdirective => ?_⟩,
    hdeclares, source_of_mem_declarations hmem⟩
  obtain ⟨y, hy, hyslot, -⟩ := declaredAmong_declarations_iff.mpr hdirective
  exact List.find?_eq_none.mp (hearlier e he) y hy (by simpa using hyslot)

/-- A run that goes through yields the join of all declarations. -/
theorem joins_of_mergeAll {merged : Merged} (h : mergeAll db sources = .ok merged) :
    merged.Joins (sources.flatMap (declarations db)) :=
  (Merges.foldlM (merges_source db) sources).ok joins_start h

/-- Paths at a slot that cannot be joined: a source declares the second ones, and there are others
at the slot, from a source that is the first to declare something there.  This source has declared
the others itself, or else a marker. -/
structure Differs (db : Entity) (sources : List Entity) (slot : Slot) (first second : Entity)
    (a b : List String) : Prop where
  isFirst : IsFirst db sources slot first
  first_declares : Declares db first slot (.paths a) ∨
    ∃ enabled, Declares db first slot (.marker enabled)
  declared : ∃ source ∈ sources, Declares db source slot (.paths a)
  mem : second ∈ sources
  second_declares : Declares db second slot (.paths b)
  ne : a ≠ b

/-- A run fails only where paths at a slot differ, and its fault names them. -/
theorem differs_of_mergeAll {fault : Fault} (h : mergeAll db sources = .error fault) :
    ∃ slot first second a b, Differs db sources slot first second a b ∧
      fault = .conflictingDirectives db.name slot.label first.name (Directive.paths a).describe
        second.name (Directive.paths b).describe := by
  obtain ⟨before, next, after, hrun, x, a, b, hfind, hjoin, hnext, hne, rfl⟩ :=
    (Merges.foldlM (merges_source db) sources).error joins_start h
  -- What was said before the fault is the beginning of what all sources say.
  rw [List.nil_append] at hfind hjoin
  have hmem : next ∈ sources.flatMap (declarations db) := by simp [hrun]
  have hbefore : ∀ y ∈ before, y ∈ sources.flatMap (declarations db) :=
    fun y hy => by simp [hrun, hy]
  obtain ⟨second, hsecond, hnextmem⟩ := List.mem_flatMap.mp hmem
  have hfound : (sources.flatMap (declarations db)).find? (·.slot = next.slot) = some x := by
    rw [hrun, List.find?_append, hfind]
    rfl
  obtain ⟨first, hfirst, hdeclares, hname⟩ := exists_isFirst_of_find? hfound
  refine ⟨next.slot, first, second, a, b, ⟨hfirst, ?_, ?_, hsecond, ?_, hne⟩, ?_⟩
  · cases hdirective : x.directive with
    | marker enabled => exact .inr ⟨enabled, hdirective ▸ hdeclares⟩
    | paths list =>
        have hsaid : DeclaredAmong before next.slot (.paths list) :=
          ⟨x, List.mem_of_find?_eq_some hfind, by simpa using List.find?_some hfind, hdirective⟩
        cases hjoin.eq_paths hsaid
        exact .inl (hdirective ▸ hdeclares)
  · obtain ⟨y, hy, hdeclared⟩ := hjoin.declared_of_eq rfl
    exact declaredAmong_flatMap_iff.mp ⟨y, hbefore y hy, hdeclared⟩
  · exact declaredAmong_declarations_iff.mp ⟨next, hnextmem, rfl, hnext⟩
  · rw [hname, source_of_mem_declarations hnextmem]

end ChangeTracking.Tracking
