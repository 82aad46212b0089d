import ChangeTracking.Proofs.Plan.Spellings
import ChangeTracking.Script.Statement

/-!
# Values of statements

Statements on the history hold the texts of expressions of the set, literals of its names, and
what the dialect itself knows.  So a property of texts that all these have holds of every value
of a statement.
-/

namespace ChangeTracking.Script

open Plan (Expr Identity Operation RowRole TrackedColumn Transition TriggerSet)
open Sql (Dialect Fragment)

variable {P : String → Prop} {p : Fragment → Prop} {d : Dialect} {set : TriggerSet}

/-- The names in the values that find a history have the property. -/
theorem isSpelled_historyFilters (hentity : P "entity") (hentityKey : P "entityKey")
    (hs : set.IsSpelled P) {key : Expr} (hkey : key.IsSpelled P) :
    ∀ f ∈ historyFilters set key, P f.1 ∧ f.2.IsSpelled P :=
  List.forall_mem_cons.mpr ⟨⟨hentity, Expr.isSpelled_text hs.entity⟩,
    List.forall_mem_singleton.mpr ⟨hentityKey, hkey⟩⟩

/-- The names of the locals of computed values. -/
def localNames : List String := ["entity_key", "object_id", "root_key", "root_object_id"]

/-- Locals stand in the identity in place of computed values. -/
theorem isSpelled_fromLocals (hnames : ∀ name ∈ localNames, P name) (hs : set.IsSpelled P)
    (row : RowRole) : (set.identity row).fromLocals.IsSpelled P :=
  (hs.identity row).fromLocals hnames

/-- The dialect writes expressions and literals with the property, if their names have it. -/
structure Shows (d : Dialect) (P : String → Prop) (p : Fragment → Prop) : Prop where
  render : ∀ e : Expr, e.IsSpelled P → p (d.render e)
  literal : ∀ text, P text → p (.ofText (Text.sqlLiteral text))
  freshId : p (.ofText d.freshId)
  now : p (.ofText d.now)
  currentUser : p d.currentUser
  transactionId : p d.transactionId
  modification : ∀ op : Operation, P op.modification

theorem Shows.headerValues (h : Shows d P p) (hs : set.IsSpelled P) {id : Fragment} (hid : p id)
    {key : Expr} (hkey : key.IsSpelled P) : ∀ value ∈ headerValues d set id key, p value := by
  have hservice : P (serviceName set) := by
    unfold serviceName
    cases hsome : set.service with
    | none => exact hs.entity
    | some service => exact hs.service service hsome
  simp only [Script.headerValues, List.forall_mem_cons]
  exact ⟨hid, h.literal _ hs.entity, h.render _ hkey, h.literal _ hservice, h.now, h.currentUser,
    List.forall_mem_nil _⟩

theorem Shows.changeValues (h : Shows d P p) (hs : set.IsSpelled P) {column : TrackedColumn}
    (hcolumn : column ∈ set.columns) (htype : p (.ofText (Text.sqlLiteral column.type)))
    (op : Operation) {identity : Identity} (hidentity : identity.IsSpelled P) {header : Expr}
    (hheader : header.IsSpelled P) :
    ∀ value ∈ changeValues d set column op identity header, p value := by
  have htransition := hs.transition hcolumn op
  simp only [Transition.toList, List.forall_mem_cons] at htransition
  obtain ⟨hbefore, hafter, hlabelBefore, hlabelAfter, -⟩ := htransition
  have hvalues := hidentity.values
  simp only [Identity.values, List.forall_mem_cons] at hvalues
  obtain ⟨hkey, hid, hrootKey, hrootId, -⟩ := hvalues
  simp only [Script.changeValues, List.forall_mem_cons]
  refine ⟨h.freshId, h.literal _ (hs.columns column hcolumn), h.render _ hbefore,
    h.render _ hafter, h.render _ hlabelBefore, h.render _ hlabelAfter, h.literal _ hs.entity,
    h.render _ hkey, h.render _ ?_, h.render _ hrootKey, h.render _ hid, h.render _ hrootId,
    htype, h.literal _ (h.modification op), h.now, h.currentUser, h.transactionId,
    h.render _ hheader, List.forall_mem_nil _⟩
  split
  · rename_i entity hentity
    exact Expr.isSpelled_text (hidentity.rootEntity entity hentity)
  · exact Expr.isSpelled_null

end ChangeTracking.Script
