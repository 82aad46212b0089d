import ChangeTracking.Deploy.Rollout
import ChangeTracking.Proofs.Deploy.Redeployment
import ChangeTracking.Proofs.NameMaps

/-!
# Rollouts

A rollout drops what the catalog lists before it creates anything: the listings by the names of
their entities, each of them once, whether or not the entity has artifacts.  Every artifact
follows as a statement or is left as a file.  Over a connection, whatever it accepts, the
statements are sent in order up to the first refused one, for which the fault is reported.
-/

namespace ChangeTracking.Deploy

open Script (Artifact Generator)

/-! ## Drops -/

/-- The triggers in the catalog, each with the entity that it is listed for: by the names of the
entities, and for one entity in the order of its list. -/
def listings (existing : NameMap (List String)) : List (String × String) :=
  existing.entries.flatMap fun e => e.2.map fun trigger => (e.1, trigger)

/-- The statements for a listing. -/
def dropsListed (g : Generator) (listing : String × String) : List Statement :=
  (dropTrigger g listing.1 listing.2).map fun sql => ⟨listing.1, sql⟩

theorem flatMap_filter_of_eq_nil {α β : Type} {p : α → Bool} {f : α → List β} {xs : List α}
    (h : ∀ x ∈ xs, p x = false → f x = []) : (xs.filter p).flatMap f = xs.flatMap f := by
  induction xs with
  | nil => rfl
  | cons x xs ih =>
      obtain ⟨hx, hxs⟩ := List.forall_mem_cons.mp h
      cases hp : p x with
      | true => rw [List.filter_cons_of_pos hp, List.flatMap_cons, List.flatMap_cons, ih hxs]
      | false =>
          rw [List.filter_cons_of_neg (by simp [hp]), List.flatMap_cons, hx hp, List.nil_append,
            ih hxs]

/-- What is dropped for an entry of the catalog. -/
theorem dropsOf_entry (g : Generator) (existing : NameMap (List String))
    {e : String × List String} (he : e ∈ existing.entries) :
    Rollout.dropsOf g existing e.1 =
      ((e.2.map fun trigger => (e.1, trigger)).filter fun l => isGenerated l.2).flatMap
        (dropsListed g) := by
  have hget : existing.get? e.1 = some e.2 := NameMap.get?_eq_some_iff.mpr he
  rw [Rollout.dropsOf, hget, Option.getD_some, dropStatements, List.map_flatMap, List.filter_map,
    List.flatMap_map]
  rfl

/-- Entities that are not in the catalog add no drops. -/
theorem dropsOf_of_not_contains (g : Generator) {existing : NameMap (List String)}
    {entity : String} (h : existing.contains entity = false) :
    Rollout.dropsOf g existing entity = [] := by
  have hget : existing.get? entity = none := Option.isNone_iff_eq_none.mp (by
    rw [← Option.not_isSome, ← NameMap.contains, h, Bool.not_false])
  rw [Rollout.dropsOf, hget]
  rfl

/-- The drops of a rollout are those of the listed triggers with the mark. -/
theorem drops_plan (g : Generator) (artifacts : List Artifact)
    (existing : NameMap (List String)) :
    (Rollout.plan g artifacts existing).drops =
      ((listings existing).filter fun l => isGenerated l.2).flatMap (dropsListed g) := by
  calc (Rollout.entities artifacts existing).flatMap (Rollout.dropsOf g existing)
      = ((Rollout.entities artifacts existing).filter existing.contains).flatMap
          (Rollout.dropsOf g existing) :=
        (flatMap_filter_of_eq_nil fun _ _ => dropsOf_of_not_contains g).symm
    _ = existing.names.flatMap (Rollout.dropsOf g existing) := by
        rw [Rollout.entities, filter_sortedNames]
    _ = existing.entries.flatMap fun e => Rollout.dropsOf g existing e.1 := List.flatMap_map ..
    _ = existing.entries.flatMap fun e =>
          ((e.2.map fun trigger => (e.1, trigger)).filter fun l => isGenerated l.2).flatMap
            (dropsListed g) := List.flatMap_congr fun _ he => dropsOf_entry g existing he
    _ = ((listings existing).filter fun l => isGenerated l.2).flatMap (dropsListed g) := by
        rw [listings, List.filter_flatMap, List.flatMap_assoc]

/-- Read back, the statements for a listing drop its trigger. -/
theorem drop?_dropsListed (g : Generator) (listing : String × String) :
    (dropsListed g listing).map (fun s => (s.artifact, drop? s.sql)) =
      (droppedBy g listing.1 listing.2).map fun dropped => (listing.1, some dropped) := by
  have hread := congrArg (List.map fun dropped => (listing.1, dropped))
    (map_drop?_dropTrigger g listing.1 listing.2)
  rw [List.map_map, List.map_map] at hread
  rw [dropsListed, List.map_map]
  exact hread

/-! ## Artifacts -/

/-- Every artifact is for a statement or for a file, in the given order. -/
inductive Assigns : List Artifact → List Statement → List (String × String) → Prop
  | nil : Assigns [] [] []
  | statement {a : Artifact} {artifacts : List Artifact} {statements : List Statement}
      {files : List (String × String)} (hexecutable : a.kind.isExecutable = true)
      (hrest : Assigns artifacts statements files) :
      Assigns (a :: artifacts) (⟨a.name, a.source⟩ :: statements) files
  | file {a : Artifact} {artifacts : List Artifact} {statements : List Statement}
      {files : List (String × String)} (hexecutable : a.kind.isExecutable = false)
      (hrest : Assigns artifacts statements files) :
      Assigns (a :: artifacts) statements ((a.fileName, a.source) :: files)

theorem assigns_filter (artifacts : List Artifact) :
    Assigns artifacts
      ((artifacts.filter (·.kind.isExecutable)).map fun a => ⟨a.name, a.source⟩)
      ((artifacts.filter fun a => !a.kind.isExecutable).map fun a => (a.fileName, a.source)) := by
  induction artifacts with
  | nil => exact .nil
  | cons a artifacts ih =>
      simp only [List.filter_cons]
      cases ha : a.kind.isExecutable with
      | true => exact .statement ha ih
      | false => exact .file ha ih

/-! ## Sending -/

section Sending

variable {σ : Type} {connection : Connection σ}

/-- The connection together with the statements that it has been sent. -/
def Connection.noted (connection : Connection σ) : Connection (σ × List String) :=
  fun state sql =>
    let answer := connection state.1 sql
    ((answer.1, state.2 ++ [sql]), answer.2)

/-- The connection accepts statements one after another. -/
inductive Accepts (connection : Connection σ) : σ → List Statement → σ → Prop
  | nil (state : σ) : Accepts connection state [] state
  | cons {state next last : σ} {statement : Statement} {rest : List Statement}
      (hnext : connection state statement.sql = (next, none))
      (hrest : Accepts connection next rest last) :
      Accepts connection state (statement :: rest) last

/-- How sending statements ends: in a state, with some of them sent, and with an answer. -/
inductive Ends (connection : Connection σ) (state : σ) (statements : List Statement) :
    σ → List Statement → Except Fault Nat → Prop
  | accepted {last : σ} (haccepts : Accepts connection state statements last) :
      Ends connection state statements last statements (.ok statements.length)
  | refused {before after : List Statement} {statement : Statement} {next last : σ}
      {reason : String} (hsplit : statements = before ++ statement :: after)
      (haccepts : Accepts connection state before next)
      (hrefused : connection next statement.sql = (last, some reason)) :
      Ends connection state statements last (before ++ [statement])
        (.error (.deploymentFailed statement.artifact reason))

/-- One more statement in front that is accepted. -/
theorem Ends.cons {state next last : σ} {statement : Statement} {rest sent : List Statement}
    {answer : Except Fault Nat} (hnext : connection state statement.sql = (next, none))
    (h : Ends connection next rest last sent answer) :
    Ends connection state (statement :: rest) last (statement :: sent) (answer.map (· + 1)) := by
  cases h with
  | accepted haccepts => exact .accepted (.cons hnext haccepts)
  | refused hsplit haccepts hrefused =>
      rw [hsplit]
      exact .refused rfl (.cons hnext haccepts) hrefused

theorem send_of_accepted {state next : σ} {statement : Statement}
    (h : connection state statement.sql = (next, none)) (accepted : Nat)
    (rest : List Statement) :
    Rollout.send connection accepted state (statement :: rest) =
      Rollout.send connection (accepted + 1) next rest := by
  rw [Rollout.send, h]

theorem send_of_refused {state last : σ} {statement : Statement} {reason : String}
    (h : connection state statement.sql = (last, some reason)) (accepted : Nat)
    (rest : List Statement) :
    Rollout.send connection accepted state (statement :: rest) =
      (last, .error (.deploymentFailed statement.artifact reason)) := by
  rw [Rollout.send, h]

theorem noted_eq {state next : σ} {sql : String} {refusal : Option String}
    (h : connection state sql = (next, refusal)) (noted : List String) :
    connection.noted (state, noted) sql = ((next, noted ++ [sql]), refusal) := by
  rw [Connection.noted, h]

theorem map_add_succ (accepted : Nat) (answer : Except Fault Nat) :
    answer.map (accepted + 1 + ·) = (answer.map (· + 1)).map (accepted + ·) := by
  cases answer with
  | ok n => exact congrArg Except.ok (Nat.add_right_comm accepted 1 n)
  | error fault => rfl

/-- Sending goes on from what was accepted and noted before. -/
theorem exists_ends_send (connection : Connection σ) (statements : List Statement) (state : σ)
    (accepted : Nat) (noted : List String) : ∃ last sent answer,
      Ends connection state statements last sent answer ∧
      Rollout.send connection accepted state statements = (last, answer.map (accepted + ·)) ∧
      Rollout.send connection.noted accepted (state, noted) statements =
        ((last, noted ++ sent.map (·.sql)), answer.map (accepted + ·)) := by
  -- On the statements left: what was accepted and noted before is carried along unchanged.
  induction statements generalizing state accepted noted with
  | nil =>
      refine ⟨state, [], .ok 0, .accepted (.nil state), rfl, ?_⟩
      rw [List.map_nil, List.append_nil]
      rfl
  | cons statement rest ih =>
      cases hanswer : connection state statement.sql with
      | mk next refusal =>
          cases refusal with
          | none =>
              obtain ⟨last, sent, answer, hends, hsend, hnoted⟩ :=
                ih next (accepted + 1) (noted ++ [statement.sql])
              refine ⟨last, statement :: sent, answer.map (· + 1), hends.cons hanswer, ?_, ?_⟩
              · rw [send_of_accepted hanswer, hsend, map_add_succ]
              · rw [send_of_accepted (noted_eq hanswer noted), hnoted, map_add_succ,
                  List.map_cons, List.append_assoc, List.singleton_append]
          | some reason =>
              refine ⟨next, [statement], _,
                .refused (List.nil_append _).symm (.nil state) hanswer,
                send_of_refused hanswer accepted rest, ?_⟩
              rw [send_of_refused (noted_eq hanswer noted)]
              rfl

end Sending

/-! ## Rollouts -/

/-- The statements of a rollout are the drops of all listed triggers with the mark, which read
back as such, and then those of the artifacts; the other artifacts are files.  Over any
connection they are sent in this order, all of them or up to the first refused one. -/
theorem rollout_drops_then_creates (g : Generator) (artifacts : List Artifact)
    (existing : NameMap (List String)) :
    let r := Rollout.plan g artifacts existing
    let marked := (listings existing).filter fun l => isGenerated l.2
    (∃ drops creates, r.statements = drops ++ creates ∧
      drops = marked.flatMap (dropsListed g) ∧
      (drops.map fun s => (s.artifact, drop? s.sql)) =
        marked.flatMap (fun l => (droppedBy g l.1 l.2).map fun dropped => (l.1, some dropped)) ∧
      Assigns artifacts creates r.files) ∧
    ∀ {σ : Type} (connection : Connection σ) (state : σ), ∃ last sent answer,
      Ends connection state r.statements last sent answer ∧
      r.execute connection state = (last, answer) ∧
      r.execute connection.noted (state, []) = ((last, sent.map (·.sql)), answer) := by
  intro r marked
  constructor
  · refine ⟨_, _, ?_, rfl, ?_, assigns_filter artifacts⟩
    · rw [Rollout.statements, drops_plan]
      rfl
    · rw [List.map_flatMap]
      exact List.flatMap_congr fun l _ => drop?_dropsListed g l
  · intro σ connection state
    obtain ⟨last, sent, answer, hends, hsend, hnoted⟩ :=
      exists_ends_send connection r.statements state 0 []
    have hcount : answer.map (0 + ·) = answer := by
      cases answer with
      | ok n => exact congrArg Except.ok (Nat.zero_add n)
      | error fault => rfl
    rw [hcount] at hsend hnoted
    exact ⟨last, sent, answer, hends, hsend, hnoted⟩

/-- A trigger of an entity without artifacts is dropped all the same, and a refused artifact ends
the rollout before the next one. -/
example :
    let artifacts : List Artifact := [
      ⟨"SHOP_ORDERS_CT_CREATE", some "shop.Orders", "CREATE", .sqlTrigger⟩,
      ⟨"SHOP_ORDERS_CT_UPDATE", some "shop.Orders", "UPDATE", .sqlTrigger⟩]
    let existing := NameMap.ofList [("shop.Legacy", ["SHOP_LEGACY_CT_CREATE", "LEGACY_AUDIT"])]
    let connection : Connection Unit := fun _ sql =>
      ((), if sql = "CREATE" then some "relation is locked" else none)
    (Rollout.plan ⟨.sqlite, false⟩ artifacts existing).execute connection.noted ((), []) =
      (((), ["DROP TRIGGER IF EXISTS \"SHOP_LEGACY_CT_CREATE\"", "CREATE"]),
        .error (.deploymentFailed "SHOP_ORDERS_CT_CREATE" "relation is locked")) := by
  decide +kernel

end ChangeTracking.Deploy
