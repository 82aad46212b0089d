import ChangeTracking.Proofs.Binary.Delimiting
import ChangeTracking.Tracking.Snapshot

/-!
# Snapshots tell descriptors apart

The encodings of settings, of descriptors and of all their parts tell their own ends, so
descriptors with one snapshot are equal, and so are settings, as long as every length in them
fits into eight bytes.
-/

namespace ChangeTracking

open Binary (FitsList FitsOption FitsText FitsTexts SelfDelimiting selfDelimiting_bool
  selfDelimiting_choice selfDelimiting_text selfDelimiting_texts)

/-! ## Settings -/

/-- Both names of tables fit. -/
def Settings.Fits (s : Settings) : Prop := FitsText s.changesTable ∧ FitsText s.headerTable

theorem selfDelimiting_settings : SelfDelimiting Settings.Fits Settings.encode := by
  have hfields := ((((((selfDelimiting_bool.append selfDelimiting_bool).append
    selfDelimiting_bool).append selfDelimiting_bool).append selfDelimiting_bool).append
    selfDelimiting_bool).append selfDelimiting_text).append selfDelimiting_text
  refine hfields.comap (f := fun s : Settings => (((((((s.ignoreCreates, s.ignoreUpdates),
    s.ignoreDeletes), s.preserveDeletes), s.quotedIdentifiers), s.strictRootBinding),
    s.changesTable), s.headerTable)) (fun a b h => ?_) (fun s => ?_)
  · cases a
    cases b
    simpa [and_assoc] using h
  · simp [Settings.Fits]

namespace Tracking

open Schema (ColumnPair)

/-! ## Parts of descriptors -/

def FitsPair (pair : ColumnPair) : Prop := FitsText pair.target ∧ FitsText pair.source

theorem selfDelimiting_pair : SelfDelimiting FitsPair encodePair := by
  have hfields := selfDelimiting_text.append selfDelimiting_text
  refine hfields.comap (f := fun pair : ColumnPair => (pair.target, pair.source))
    (fun a b h => ?_) (fun pair => Iff.rfl)
  cases a
  cases b
  simpa using h

def Attribute.Fits (a : Attribute) : Prop :=
  FitsText a.name ∧ FitsText a.type ∧ FitsOption FitsText a.target ∧ FitsTexts a.foreignKeys ∧
    FitsList FitsPair a.onTerms ∧ FitsTexts a.labelPaths

theorem selfDelimiting_attribute : SelfDelimiting Attribute.Fits Attribute.encode := by
  have hclass : SelfDelimiting (fun _ => True) fun c : ValueClass => Binary.nat32 c.index :=
    selfDelimiting_choice (fun c => by cases c <;> decide) fun a b => by
      cases a <;> cases b <;> decide
  have hrelation : SelfDelimiting (fun _ => True) fun r : Relation => Binary.nat32 r.index :=
    selfDelimiting_choice (fun r => by cases r <;> decide) fun a b => by
      cases a <;> cases b <;> decide
  have hfields := ((((((selfDelimiting_text.append selfDelimiting_text).append hclass).append
    hrelation).append selfDelimiting_text.option).append selfDelimiting_texts).append
    selfDelimiting_pair.list).append selfDelimiting_texts
  refine hfields.comap (f := fun a : Attribute => (((((((a.name, a.type), a.valueClass),
    a.relation), a.target), a.foreignKeys), a.onTerms), a.labelPaths)) (fun a b h => ?_)
    (fun a => ?_)
  · cases a
    cases b
    simpa [and_assoc] using h
  · simp [Attribute.Fits, and_assoc]

def IdentityField.Fits (f : IdentityField) : Prop := FitsText f.path

theorem selfDelimiting_identityField : SelfDelimiting IdentityField.Fits IdentityField.encode := by
  have hfields := selfDelimiting_text.append selfDelimiting_bool
  refine hfields.comap (f := fun f : IdentityField => (f.path, f.onRow)) (fun a b h => ?_)
    (fun f => ?_)
  · cases a
    cases b
    simpa using h
  · simp [IdentityField.Fits]

def RootLink.Fits : RootLink → Prop
  | foreignKeys joins => FitsList FitsPair joins
  | backReference field joins => FitsText field ∧ FitsList FitsPair joins

/-- The two kinds of links are told apart by their position. -/
theorem selfDelimiting_link : SelfDelimiting RootLink.Fits RootLink.encode where
  ne_nil link := by cases link <;> exact List.cons_ne_nil _ _
  fits_of_length {link} hlink := by
    cases link with
    | foreignKeys joins =>
        rw [RootLink.encode, List.length_append] at hlink
        exact selfDelimiting_pair.list.fits_of_length (by omega)
    | backReference field joins =>
        rw [RootLink.encode, List.length_append, List.length_append] at hlink
        exact ⟨selfDelimiting_text.fits_of_length (by omega),
          selfDelimiting_pair.list.fits_of_length (by omega)⟩
  append_inj {a b x y} ha hb heq := by
    cases a with
    | foreignKeys joins =>
        cases b with
        | foreignKeys joins' =>
            rw [RootLink.encode, RootLink.encode, List.append_assoc, List.append_assoc,
              List.append_cancel_left_eq] at heq
            obtain ⟨rfl, hxy⟩ := selfDelimiting_pair.list.append_inj ha hb heq
            exact ⟨rfl, hxy⟩
        | backReference field' joins' => exact absurd (List.cons.inj heq).1 (by decide)
    | backReference field joins =>
        cases b with
        | foreignKeys joins' => exact absurd (List.cons.inj heq).1 (by decide)
        | backReference field' joins' =>
            rw [RootLink.encode, RootLink.encode, List.append_assoc, List.append_assoc,
              List.append_assoc, List.append_assoc, List.append_cancel_left_eq] at heq
            obtain ⟨rfl, hjoins⟩ := selfDelimiting_text.append_inj ha.1 hb.1 heq
            obtain ⟨rfl, hxy⟩ := selfDelimiting_pair.list.append_inj ha.2 hb.2 hjoins
            exact ⟨rfl, hxy⟩

def RootBinding.Fits (b : RootBinding) : Prop :=
  FitsText b.root ∧ b.link.Fits ∧ FitsList IdentityField.Fits b.identity

theorem selfDelimiting_binding : SelfDelimiting RootBinding.Fits RootBinding.encode := by
  have hfields := (selfDelimiting_text.append selfDelimiting_link).append
    selfDelimiting_identityField.list
  refine hfields.comap (f := fun b : RootBinding => ((b.root, b.link), b.identity))
    (fun a b h => ?_) (fun b => ?_)
  · cases a
    cases b
    simpa [and_assoc] using h
  · simp [RootBinding.Fits, and_assoc]

def Collection.Fits (c : Collection) : Prop :=
  FitsText c.element ∧ FitsText c.target ∧ FitsTexts c.targetKeys ∧
    FitsList IdentityField.Fits c.identity ∧ FitsOption RootLink.Fits c.link

theorem selfDelimiting_collection : SelfDelimiting Collection.Fits Collection.encode := by
  have hfields := (((selfDelimiting_text.append selfDelimiting_text).append
    selfDelimiting_texts).append selfDelimiting_identityField.list).append
    selfDelimiting_link.option
  refine hfields.comap (f := fun c : Collection => ((((c.element, c.target), c.targetKeys),
    c.identity), c.link)) (fun a b h => ?_) (fun c => ?_)
  · cases a
    cases b
    simpa [and_assoc] using h
  · simp [Collection.Fits, and_assoc]

/-! ## Descriptors -/

/-- Every text and every list of the descriptor fits. -/
def Descriptor.Fits (d : Descriptor) : Prop :=
  FitsText d.entity ∧ FitsOption FitsText d.service ∧ FitsTexts d.primaryKey ∧
    FitsList Attribute.Fits d.attributes ∧ FitsList IdentityField.Fits d.identity ∧
    FitsList Collection.Fits d.collections ∧ FitsOption RootBinding.Fits d.binding

theorem selfDelimiting_descriptor : SelfDelimiting Descriptor.Fits Descriptor.encode := by
  have hfields := (((((selfDelimiting_text.append selfDelimiting_text.option).append
    selfDelimiting_texts).append selfDelimiting_attribute.list).append
    selfDelimiting_identityField.list).append selfDelimiting_collection.list).append
    selfDelimiting_binding.option
  refine hfields.comap (f := fun d : Descriptor => ((((((d.entity, d.service), d.primaryKey),
    d.attributes), d.identity), d.collections), d.binding)) (fun a b h => ?_) (fun d => ?_)
  · cases a
    cases b
    simpa [and_assoc] using h
  · simp [Descriptor.Fits, and_assoc]

end Tracking

end ChangeTracking
