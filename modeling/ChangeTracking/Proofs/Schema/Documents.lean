import ChangeTracking.Proofs.Json.Records
import ChangeTracking.Proofs.Schema.Registered
import ChangeTracking.Schema.Document

/-!
# Model documents read back

Every part of a model is read back from what it is written as, and so is the model: its entities
have the names that they are registered under, so reading fills in none.
-/

namespace ChangeTracking.Schema

open Json (ReadsBack fields?_record readsBack_bool readsBack_text readsBack_texts
  readsBack_uint32)

/-! ## Parts -/

theorem Directive.readsBack : ReadsBack Directive.ofJson? Directive.toJson := by
  intro directive
  cases directive with
  | marker enabled => rfl
  | paths list =>
      have hlist : (list.map Json.text).mapM Json.text? = some list := readsBack_texts list
      simp only [toJson, Json.texts, ofJson?, hlist, Option.map_some]

theorem Directive.toJson_ne_null (directive : Directive) : directive.toJson ≠ .null := by
  cases directive <;> exact Json.noConfusion

theorem AssociationKind.readsBack :
    ReadsBack (Json.choice? AssociationKind.names) fun kind => .text kind.name := by
  intro kind
  cases kind <;> rfl

theorem OnTerm.readsBack : ReadsBack OnTerm.ofJson? OnTerm.toJson := by
  intro term
  rw [ofJson?, toJson, fields?_record]
  · simp [Json.Fields.required, Json.writtenFields, List.lookup_cons, readsBack_text _]
  · rfl
  · decide

theorem Association.readsBack : ReadsBack Association.ofJson? Association.toJson := by
  intro a
  rw [ofJson?, toJson, fields?_record]
  · simp [Json.Fields.required, Json.Fields.defaulted, Json.writtenFields, List.lookup_cons,
      readsBack_text _, readsBack_bool _, readsBack_texts _, OnTerm.readsBack.list _,
      AssociationKind.readsBack _]
  · rfl
  · decide

theorem Element.readsBack : ReadsBack Element.ofJson? Element.toJson := by
  intro e
  have htext := readsBack_text.nullable fun _ => Json.noConfusion
  have hlength := readsBack_uint32.nullable fun _ => Json.noConfusion
  have hassociation := Association.readsBack.nullable fun _ => Json.noConfusion
  have hdirective := Directive.readsBack.nullable Directive.toJson_ne_null
  rw [ofJson?, toJson, fields?_record]
  · simp [Json.Fields.required, Json.Fields.defaulted, Json.writtenFields, List.lookup_cons,
      readsBack_text _, readsBack_bool _, htext _, hlength _, hassociation _, hdirective _]
  · rfl
  · decide

theorem Entity.readsBack : ReadsBack Entity.ofJson? Entity.toJson := by
  intro e
  have htext := readsBack_text.nullable fun _ => Json.noConfusion
  have hdirective := Directive.readsBack.nullable Directive.toJson_ne_null
  rw [ofJson?, toJson, fields?_record]
  · simp [Json.Fields.defaulted, Json.writtenFields, List.lookup_cons,
      readsBack_text _, Element.readsBack.list _, htext _, hdirective _]
  · rfl
  · decide

/-! ## Models -/

theorem name_ne_empty_of_checkEntity {entities : NameMap Entity} {key : String} {e : Entity}
    (h : checkEntity entities key e = .ok ()) : e.name.isEmpty = false := by
  rw [checkEntity] at h
  split at h
  · cases h
  · obtain ⟨_, hname, -⟩ := bind_eq_ok.mp h
    rw [Naming.checkName] at hname
    split at hname
    · cases hname
    · exact Bool.not_eq_true _ ▸ ‹¬ e.name.isEmpty = true›

namespace Model

/-- Checked entities have names already. -/
theorem map_namedBy (m : Model) : m.entities.map Entity.namedBy = m.entities := by
  have hnamed : ∀ entry ∈ m.entities.entries, (entry.1, Entity.namedBy entry.1 entry.2) = entry := by
    intro entry hentry
    have hname := name_ne_empty_of_checkEntity (eq_ok_of_forM m.checked entry hentry)
    rw [Entity.namedBy, hname, if_neg Bool.false_ne_true]
  exact NameMap.eq_of_entries_eq ((List.map_congr_left hnamed).trans (List.map_id _))

theorem ofMap_entities (m : Model) : ofMap m.entities = .ok m := by
  rw [ofMap]
  split
  · rfl
  · rename_i hfault
    rw [m.checked] at hfault
    cases hfault

theorem entitiesOfJson?_toJson (m : Model) : entitiesOfJson? m.toJson = some m.entities := by
  have hentities := Entity.readsBack.map m.entities
  rw [entitiesOfJson?, toJson, fields?_record]
  · simp [Json.Fields.defaulted, Json.writtenFields, hentities, map_namedBy]
  · rfl
  · decide

/-- A model is read back from what it is written as, and to read a document, write what was read and
read it again is to read the document. -/
theorem ofJson_toJson :
    (∀ m : Model, ofJson m.toJson = .ok m) ∧
      ∀ value : Json, (ofJson value >>= fun m => ofJson m.toJson) = ofJson value := by
  have hback : ∀ m : Model, ofJson m.toJson = .ok m := by
    intro m
    rw [ofJson, entitiesOfJson?_toJson]
    exact ofMap_entities m
  refine ⟨hback, fun value => ?_⟩
  cases ofJson value with
  | error fault => rfl
  | ok m => exact hback m

end Model

end ChangeTracking.Schema
