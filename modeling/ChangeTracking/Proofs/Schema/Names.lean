import ChangeTracking.Proofs.Schema.Registered

/-!
# Names of checked models

Every name in a checked model is made of the characters of identifiers and of dots, all of
them ASCII.
-/

namespace ChangeTracking

/-! ## Accepted names -/

/-- What holds of a separator and of all parts holds of the parts joined by it. -/
theorem forall_mem_intercalate {α : Type} {p : α → Prop} {separator : List α}
    {parts : List (List α)} (hseparator : ∀ x ∈ separator, p x)
    (hparts : ∀ part ∈ parts, ∀ x ∈ part, p x) : ∀ x ∈ separator.intercalate parts, p x := by
  induction parts with
  | nil => exact List.forall_mem_nil _
  | cons part parts ih =>
      obtain ⟨hpart, hparts⟩ := List.forall_mem_cons.mp hparts
      cases parts with
      | nil =>
          rw [List.intercalate_singleton]
          exact hpart
      | cons next rest =>
          rw [List.intercalate_cons_cons, List.append_assoc, List.forall_mem_append,
            List.forall_mem_append]
          exact ⟨hpart, hseparator, ih hparts⟩

namespace Naming

/-- The character may stand in a dotted name. -/
def isNameChar (c : Char) : Bool := isInner c || c == '.'

theorem isInner_of_isInitial {c : Char} (h : isInitial c = true) : isInner c = true := by
  rw [isInitial, Bool.or_eq_true] at h
  rw [isInner, Char.isAlphanum, Bool.or_eq_true, Bool.or_eq_true, Bool.or_eq_true]
  exact h.elim (fun halpha => .inl (.inl (.inl halpha))) fun hmark => .inl (.inr hmark)

/-- The characters of names are ASCII. -/
theorem lt_of_isNameChar {c : Char} (h : isNameChar c = true) : c.toNat < 128 := by
  have hval : c.toNat = c.val.toNat := rfl
  have hz : 'z'.val.toNat = 122 := rfl
  delta isNameChar isInner Char.isAlphanum Char.isAlpha Char.isUpper Char.isLower Char.isDigit at h
  simp only [Bool.or_eq_true, Bool.and_eq_true, decide_eq_true_eq, beq_iff_eq,
    UInt32.le_iff_toNat_le, ge_iff_le] at h
  rcases h with ((((⟨-, h⟩ | ⟨-, h⟩) | ⟨-, h⟩) | rfl) | rfl) | rfl
  · have hZ : 'Z'.val.toNat = 90 := rfl
    omega
  · omega
  · have h9 : '9'.val.toNat = 57 := rfl
    omega
  all_goals decide

/-- The text begins as an identifier and has the characters of dotted names. -/
structure IsName (s : String) : Prop where
  initial : ∀ c ∈ s.toList.head?, isInitial c = true
  chars : ∀ c ∈ s.toList, isNameChar c = true

theorem chars_of_hasIdentifierShape {cs : List Char} (h : hasIdentifierShape cs = true) :
    (∃ c rest, cs = c :: rest ∧ isInitial c = true) ∧ ∀ c ∈ cs, isNameChar c = true := by
  unfold hasIdentifierShape at h
  split at h
  · cases h
  · rename_i c rest
    obtain ⟨hc, hrest⟩ := Bool.and_eq_true_iff.mp h
    refine ⟨⟨c, rest, rfl, hc⟩, fun d hd => ?_⟩
    have hinner : isInner d = true := by
      rcases List.mem_cons.mp hd with rfl | hd
      · exact isInner_of_isInitial hc
      · exact List.all_eq_true.mp hrest d hd
    rw [isNameChar, hinner, Bool.true_or]

theorem hasIdentifierShape_of_checkIdentifier {parameter s : String}
    (h : checkIdentifier parameter s = .ok ()) : hasIdentifierShape s.toList = true := by
  unfold checkIdentifier at h
  split at h
  · cases h
  · split at h
    · cases h
    · split at h
      · assumption
      · cases h

theorem hasIdentifierShape_of_isIdentifier {s : String} (h : isIdentifier s = true) :
    hasIdentifierShape s.toList = true := by
  unfold isIdentifier at h
  cases hcheck : checkIdentifier "" s with
  | ok _ => exact hasIdentifierShape_of_checkIdentifier hcheck
  | error fault =>
      rw [hcheck] at h
      cases h

theorem isName_of_checkIdentifier {parameter s : String}
    (h : checkIdentifier parameter s = .ok ()) : IsName s := by
  obtain ⟨⟨c, rest, hcs, hc⟩, hchars⟩ :=
    chars_of_hasIdentifierShape (hasIdentifierShape_of_checkIdentifier h)
  refine ⟨fun d hd => ?_, hchars⟩
  rw [hcs] at hd
  cases hd
  exact hc

theorem isName_of_checkName {parameter s : String} (h : checkName parameter s = .ok ()) :
    IsName s := by
  unfold checkName at h
  split at h
  · cases h
  · split at h
    · rename_i hparts
      have hshapes : ∀ part ∈ s.toList.splitOn '.', hasIdentifierShape part = true := by
        intro part hpart
        have hmem : String.ofList part ∈ Text.segments '.' s := List.mem_map_of_mem hpart
        have hidentifier : isIdentifier (String.ofList part) = true := by
          simpa using List.find?_eq_none.mp hparts _ hmem
        simpa using hasIdentifierShape_of_isIdentifier hidentifier
      have hjoined : ['.'].intercalate (s.toList.splitOn '.') = s.toList :=
        List.intercalate_splitOn '.'
      -- A name starts like its first part, and has no characters but those of its parts and dots.
      constructor
      · cases hfirst : s.toList.splitOn '.' with
        | nil => exact absurd hfirst (List.splitOn_ne_nil _ _)
        | cons part parts =>
            have hshape := hshapes part (hfirst ▸ List.mem_cons_self)
            obtain ⟨⟨c, rest, rfl, hc⟩, -⟩ := chars_of_hasIdentifierShape hshape
            have hhead : s.toList.head? = some c := by
              rw [← hjoined, hfirst]
              cases parts <;> rfl
            rw [hhead]
            rintro d ⟨⟩
            exact hc
      · rw [← hjoined]
        exact forall_mem_intercalate (List.forall_mem_singleton.mpr rfl)
          fun part hpart => (chars_of_hasIdentifierShape (hshapes part hpart)).2
    · cases h

theorem isName_of_checkPath {parameter s : String} (h : checkPath parameter s = .ok ()) :
    IsName s := by
  rw [checkPath, bind_eq_ok] at h
  obtain ⟨_, hname, -⟩ := h
  exact isName_of_checkName hname

end Naming

/-! ## Names of a model -/

namespace Schema

open Naming (IsName)

/-- The names in an association: its target, its keys and the columns of its condition. -/
def Association.names (a : Association) : List String :=
  a.target :: (a.keys ++ a.on.flatMap fun term => [term.target, term.source])

/-- The names in an element. -/
def Element.names (element : Element) : List String :=
  element.name :: element.association.toList.flatMap Association.names

/-- The names in an entity, without those of the paths in its directives. -/
def Entity.names (e : Entity) : List String :=
  e.name :: (e.texts.toList ++ e.elements.flatMap Element.names)

theorem isName_of_checkOnTerm {term : OnTerm} (h : checkOnTerm term = .ok ()) :
    IsName term.target ∧ IsName term.source := by
  rw [checkOnTerm, bind_eq_ok] at h
  obtain ⟨_, htarget, hsource⟩ := h
  exact ⟨Naming.isName_of_checkIdentifier htarget, Naming.isName_of_checkIdentifier hsource⟩

theorem isName_of_checkAssociation {a : Association} (h : checkAssociation (some a) = .ok ()) :
    ∀ name ∈ a.names, IsName name := by
  rw [checkAssociation, bind_eq_ok] at h
  obtain ⟨_, htarget, h⟩ := h
  obtain ⟨_, hkeys, hterms⟩ := bind_eq_ok.mp h
  rw [Association.names, List.forall_mem_cons, List.forall_mem_append, List.forall_mem_flatMap]
  refine ⟨Naming.isName_of_checkName htarget, fun key hkey => ?_, fun term hterm => ?_⟩
  · exact Naming.isName_of_checkPath (eq_ok_of_forM hkeys key hkey)
  · obtain ⟨htarget, hsource⟩ := isName_of_checkOnTerm (eq_ok_of_forM hterms term hterm)
    exact List.forall_mem_cons.mpr ⟨htarget, List.forall_mem_singleton.mpr hsource⟩

theorem isName_of_checkElement {element : Element} (h : checkElement element = .ok ()) :
    ∀ name ∈ element.names, IsName name := by
  rw [checkElement, bind_eq_ok] at h
  obtain ⟨_, hname, h⟩ := h
  obtain ⟨_, -, hassociation⟩ := bind_eq_ok.mp h
  rw [Element.names, List.forall_mem_cons, List.forall_mem_flatMap]
  refine ⟨Naming.isName_of_checkIdentifier hname, fun a ha => ?_⟩
  rw [Option.mem_toList.mp ha] at hassociation
  exact isName_of_checkAssociation hassociation

theorem checkElement_of_checkEntity {entities : NameMap Entity} {key : String} {e : Entity}
    (h : checkEntity entities key e = .ok ()) : ∀ element ∈ e.elements, checkElement element = .ok () := by
  have hregistered := name_of_checkEntity h
  simp only [checkEntity, hregistered, ne_eq, not_true_eq_false, if_false] at h
  obtain ⟨_, -, h⟩ := bind_eq_ok.mp h
  obtain ⟨_, -, h⟩ := bind_eq_ok.mp h
  obtain ⟨_, -, h⟩ := bind_eq_ok.mp h
  obtain ⟨_, helements, -⟩ := bind_eq_ok.mp h
  exact eq_ok_of_forM helements

theorem isName_of_checkEntity {entities : NameMap Entity} {key : String} {e : Entity}
    (h : checkEntity entities key e = .ok ()) : ∀ name ∈ e.names, IsName name := by
  have hregistered := name_of_checkEntity h
  have helements := checkElement_of_checkEntity h
  simp only [checkEntity, hregistered, ne_eq, not_true_eq_false, if_false] at h
  obtain ⟨_, hname, h⟩ := bind_eq_ok.mp h
  obtain ⟨_, -, h⟩ := bind_eq_ok.mp h
  obtain ⟨_, htexts, -⟩ := bind_eq_ok.mp h
  rw [Entity.names, List.forall_mem_cons, List.forall_mem_append, List.forall_mem_flatMap,
    hregistered]
  refine ⟨Naming.isName_of_checkName hname, fun texts hmem => ?_, fun element helement => ?_⟩
  · rw [Option.mem_toList.mp hmem] at htexts
    exact Naming.isName_of_checkName htexts
  · exact isName_of_checkElement (helements element helement)

namespace Model

variable {m : Model} {name : String} {e : Entity}

/-- The names in the entities of a checked model are made of the characters of names. -/
theorem isName_of_get? (h : m.get? name = some e) : ∀ n ∈ e.names, IsName n :=
  isName_of_checkEntity (eq_ok_of_forM m.checked (name, e) (NameMap.get?_eq_some_iff.mp h))

theorem isName_entity (h : m.get? name = some e) : IsName e.name :=
  isName_of_get? h e.name List.mem_cons_self

/-- The elements of a checked model are named by identifiers, without dots. -/
theorem hasIdentifierShape_element (h : m.get? name = some e) {element : Element}
    (helement : element ∈ e.elements) :
    Naming.hasIdentifierShape element.name.toList = true := by
  have hcheck := checkElement_of_checkEntity
    (eq_ok_of_forM m.checked (name, e) (NameMap.get?_eq_some_iff.mp h)) element helement
  rw [checkElement, bind_eq_ok] at hcheck
  obtain ⟨_, hname, -⟩ := hcheck
  exact Naming.hasIdentifierShape_of_checkIdentifier hname

end Model

theorem Entity.mem_names_of_mem_elements {e : Entity} {element : Element}
    (helement : element ∈ e.elements) {n : String} (hn : n ∈ element.names) : n ∈ e.names := by
  rw [names, List.mem_cons, List.mem_append, List.mem_flatMap]
  exact .inr (.inr ⟨element, helement, hn⟩)

end Schema

end ChangeTracking
