import ChangeTracking.Deploy.Catalog
import ChangeTracking.Proofs.Script.Creations

/-!
# Redeployment

The names under which triggers were created are enough to drop them: every name has the mark
of generated triggers, and the statements made from it drop the trigger, and in PostgreSQL the
function, that the text of the artifact creates.  Other names are left alone.
-/

namespace ChangeTracking.Deploy

open Naming (isInner)
open Plan (Operation TriggerSet planAll)
open Schema (Model)
open Script (Artifact Creation Generator creation?)
open Sql (Dialect readName)
open Text (IsAscii charsAfter? charsAfter?_append)
open Tracking (Analysis analyze)

/-! ## Statements that drop -/

/-- What a statement drops. -/
inductive Drop
  | trigger (name : String) (table : Option String)
  | function (name : String)
  deriving DecidableEq, Repr

/-- Read the name of a trigger, and of its table where it is told. -/
def readDroppedTrigger (cs : List Char) : Option Drop := do
  let (name, rest) ← readName cs
  if rest = [] then return .trigger name none
  let (table, rest) ← readName (← charsAfter? " ON ".toList rest)
  if rest = [] then return .trigger name (some table) else none

/-- Read the name of a function without arguments. -/
def readDroppedFunction (cs : List Char) : Option Drop := do
  let (name, rest) ← readName cs
  if rest = "()".toList then return .function name else none

/-- What a statement drops, if it does nothing else. -/
def drop? (statement : String) : Option Drop :=
  ((charsAfter? "DROP TRIGGER IF EXISTS ".toList statement.toList).bind readDroppedTrigger).or
    (((charsAfter? "DROP TRIGGER ".toList statement.toList).bind readDroppedTrigger).or
      ((charsAfter? "DROP FUNCTION IF EXISTS ".toList statement.toList).bind readDroppedFunction))

/-- What is to be dropped again of what was created: the trigger and its function.  A trigger that
calls a function of its own is known together with its table. -/
def drops (c : Creation) : List Drop :=
  match c.function with
  | none => [.trigger c.trigger none]
  | some function => [.trigger c.trigger (some c.table), .function function]

/-! ## Reading them -/

theorem readDroppedTrigger_alone (name : String) :
    readDroppedTrigger (Text.sqlIdentifier name).toList = some (.trigger name none) := by
  rw [readDroppedTrigger, Sql.readName_alone]
  rfl

theorem readDroppedTrigger_on (name table : String) :
    readDroppedTrigger
        ((Text.sqlIdentifier name).toList ++ (" ON ".toList ++ (Text.sqlIdentifier table).toList)) =
      some (.trigger name (some table)) := by
  have hon : " ON ".toList ++ (Text.sqlIdentifier table).toList ≠ [] := by simp
  rw [readDroppedTrigger, Sql.readName_quoted name (by simp)]
  simp only [Option.bind_eq_bind, Option.bind_some, if_neg hon, charsAfter?_append,
    Sql.readName_alone]
  rfl

theorem drop?_ifExists {rest : List Char} {statement : String} {dropped : Drop}
    (h : statement.toList = "DROP TRIGGER IF EXISTS ".toList ++ rest)
    (hrest : readDroppedTrigger rest = some dropped) : drop? statement = some dropped := by
  rw [drop?, h, charsAfter?_append, Option.bind_some, hrest, Option.some_or]

theorem drop?_trigger (name : String) :
    drop? ("DROP TRIGGER " ++ Text.sqlIdentifier name) = some (.trigger name none) := by
  have hother : charsAfter? "DROP TRIGGER IF EXISTS ".toList
      ("DROP TRIGGER ".toList ++ (Text.sqlIdentifier name).toList) = none := by
    have hname : ∃ rest, (Text.sqlIdentifier name).toList = '"' :: rest := ⟨_, String.toList_ofList⟩
    obtain ⟨rest, hrest⟩ := hname
    rw [hrest]
    rfl
  rw [drop?, String.toList_append, hother, Option.bind_none, Option.none_or, charsAfter?_append,
    Option.bind_some, readDroppedTrigger_alone, Option.some_or]

theorem drop?_function (name : String) :
    drop? ("DROP FUNCTION IF EXISTS " ++ Text.sqlIdentifier name ++ "()") =
      some (.function name) := by
  have hother (rest : List Char) : charsAfter? "DROP TRIGGER IF EXISTS ".toList
      ("DROP FUNCTION IF EXISTS ".toList ++ rest) = none ∧
        charsAfter? "DROP TRIGGER ".toList ("DROP FUNCTION IF EXISTS ".toList ++ rest) = none :=
    ⟨rfl, rfl⟩
  rw [drop?, String.toList_append, String.toList_append, List.append_assoc, (hother _).1,
    (hother _).2, charsAfter?_append, Option.bind_some, readDroppedFunction,
    Sql.readName_quoted name (by simp)]
  rfl

/-- What the statements made from a name drop.  A trigger that calls a function of its own is
dropped on its table and with this function, which is told from the name. -/
def droppedBy (g : Generator) (entity name : String) : List Drop :=
  match g.backend with
  | .postgres =>
      .trigger name (some (g.dialect.catalogTable entity))
        :: (functionOf? name).toList.map Drop.function
  | .sqlite | .hana | .h2 => [.trigger name none]

/-- The statements made from any name drop the trigger of this name. -/
theorem map_drop?_dropTrigger (g : Generator) (entity name : String) :
    (dropTrigger g entity name).map drop? = (droppedBy g entity name).map some := by
  have halone : drop? ("DROP TRIGGER IF EXISTS " ++ Text.sqlIdentifier name) =
      some (.trigger name none) :=
    drop?_ifExists (String.toList_append) (readDroppedTrigger_alone name)
  obtain ⟨backend, quoted⟩ := g
  cases backend with
  | sqlite => exact congrArg (· :: []) halone
  | h2 => exact congrArg (· :: []) halone
  | hana => exact congrArg (· :: []) (drop?_trigger name)
  | postgres =>
      -- Only PostgreSQL names the table, and drops the function too.
      have htrigger (table : String) : drop? ("DROP TRIGGER IF EXISTS " ++
          Text.sqlIdentifier name ++ " ON " ++ Text.sqlIdentifier table) =
            some (.trigger name (some table)) := by
        refine drop?_ifExists ?_ (readDroppedTrigger_on name table)
        simp only [String.toList_append, List.append_assoc]
      rw [dropTrigger, droppedBy]
      dsimp only
      have hfunctions : ((functionOf? name).toList.map fun function =>
          "DROP FUNCTION IF EXISTS " ++ Text.sqlIdentifier function ++ "()").map drop? =
            ((functionOf? name).toList.map Drop.function).map some := by
        rw [List.map_map, List.map_map]
        refine List.map_congr_left fun function _ => ?_
        rw [Function.comp_apply, Function.comp_apply, drop?_function]
      rw [List.map_cons, List.map_cons, hfunctions, Dialect.tableName, htrigger]

/-! ## The mark -/

theorem occursIn_append (front word rest : List Char) :
    Text.occursIn word (front ++ (word ++ rest)) = true := by
  induction front with
  | nil =>
      cases hcs : word ++ rest with
      | nil =>
          obtain ⟨rfl, -⟩ := List.append_eq_nil_iff.mp hcs
          rfl
      | cons c cs => rw [List.nil_append, Text.occursIn, ← hcs, charsAfter?_append]; rfl
  | cons c front ih => rw [List.cons_append, Text.occursIn, ih, Bool.or_true]

section Artifacts

variable {m : Model} {g : Generator} {set : TriggerSet}

theorem underscore_of_mem_endings {ending : String} (h : ending ∈ g.endings set) :
    ∃ tail, ending.toList = '_' :: tail := by
  have hsingle (h : ending ∈ set.operations.map fun op => g.dialect.fold ("_" ++ op.suffix)) :
      ∃ tail, ending.toList = '_' :: tail := by
    obtain ⟨op, -, rfl⟩ := List.mem_map.mp h
    rw [Script.toList_fold_suffix, String.toList_append, List.map_append]
    exact ⟨_, congrArg (· :: _) (Script.letterCase_mark g.backend).1⟩
  unfold Generator.endings at h
  split at h
  · split at h
    · cases h
    · rw [List.mem_singleton.mp h]
      exact ⟨_, rfl⟩
  · exact hsingle h

/-- Behind the table, and in front of the composition and the ending, stands the mark. -/
theorem isGenerated_of_mem_endings (h : Script.IsPlaced m set) {ending : String}
    (hending : ending ∈ g.endings set) :
    isGenerated (g.dialect.fold set.stem ++ ending) = true := by
  have hletters : (Dialect.letterCase g.backend 'C').toUpper = 'C' ∧
      (Dialect.letterCase g.backend 'T').toUpper = 'T' ∧ ('_' : Char).toUpper = '_' := by
    cases g.backend <;> decide
  obtain ⟨hC, hT, hunderscore⟩ := hletters
  -- The last sign of the mark is the first one of the composition, or else of the ending.
  have htail : ∃ tail, ((Script.compositionPart set).toList.map (Dialect.letterCase g.backend) ++
      ending.toList).map Char.toUpper = '_' :: tail := by
    rcases Script.toList_compositionPart set _ (Script.letterCase_mark g.backend).1 with
      hnil | ⟨tail, htail⟩
    · obtain ⟨tail, htail⟩ := underscore_of_mem_endings hending
      rw [hnil, List.nil_append, htail]
      exact ⟨_, congrArg (· :: _) hunderscore⟩
    · rw [htail]
      exact ⟨_, congrArg (· :: _) hunderscore⟩
  obtain ⟨tail, htail⟩ := htail
  have hmarked : (g.dialect.fold set.stem ++ ending).toUpper.toList =
      (g.dialect.tableStem set.entity).toList.map Char.toUpper ++ (nameMark.toList ++ tail) := by
    rw [Text.toList_toUpper, String.toList_append, Script.toList_fold_stem h, List.append_assoc,
      List.map_append, List.cons_append, List.cons_append, List.cons_append, List.map_cons,
      List.map_cons, List.map_cons, hC, hT, hunderscore, htail]
    rfl
  rw [isGenerated, Text.contains, hmarked]
  exact occursIn_append _ _ _

theorem exists_ending_of_mem_artifacts (h : IsAscii set.stem) {artifact : Artifact}
    (hartifact : artifact ∈ g.artifacts set) :
    ∃ ending ∈ g.endings set, artifact.name = g.dialect.fold set.stem ++ ending := by
  have hname := List.mem_map_of_mem (f := (·.name)) hartifact
  rw [Script.names_artifacts h] at hname
  obtain ⟨ending, hending, heq⟩ := List.mem_map.mp hname
  exact ⟨ending, hending, heq.symm⟩

/-! ## Dropping what was created -/

theorem before?_append (s ending : String) : Text.before? ending (s ++ ending) = some s := by
  rw [Text.before?, String.toList_append, List.reverse_append, charsAfter?_append, Option.map_some,
    List.reverse_reverse, String.ofList_toList]

/-- The statements made from the name of an artifact drop what the artifact creates. -/
theorem drop?_dropTrigger {ending : String} (h : ending ∈ g.endings set) :
    (dropTrigger g set.entity (g.dialect.fold set.stem ++ ending)).map drop? =
      (drops (g.creation set (g.dialect.fold set.stem ++ ending))).map some := by
  rw [map_drop?_dropTrigger]
  obtain ⟨backend, quoted⟩ := g
  cases backend with
  | sqlite => rfl
  | h2 => rfl
  | hana => rfl
  | postgres =>
      -- The name of the function is made from that of the trigger, by another ending.
      have hending : ending = triggerEnding := by
        unfold Generator.endings at h
        dsimp only at h
        split at h
        · cases h
        · exact List.mem_singleton.mp h
      have hfunction : functionOf?
          ((Generator.mk .postgres quoted).dialect.fold set.stem ++ ending) =
            some ((Generator.mk .postgres quoted).dialect.fold set.stem ++ "_func") := by
        rw [hending, functionOf?, before?_append, Option.map_some]
      rw [droppedBy]
      dsimp only
      rw [hfunction]
      rfl

end Artifacts

/-- The statements that drop triggers read only names with the mark. -/
theorem dropStatements_filter (g : Generator) (entity : String) (existing : List String) :
    dropStatements g entity existing = dropStatements g entity (existing.filter isGenerated) := by
  rw [dropStatements, dropStatements, List.filter_filter]
  simp only [Bool.and_self]

/-- The artifacts of a planned set are named differently, and all with the mark.  The statements
made from their names drop in turn the trigger that each text creates, and in PostgreSQL its
function; names without the mark add no statement. -/
theorem dropStatements_artifacts {m : Model} {settings settings' : Settings} {name : String}
    {a : Analysis} (h : analyze m name settings = .ok a) {sets : List TriggerSet}
    (hplan : planAll m a.descriptor settings' = .ok sets) {set : TriggerSet} (hset : set ∈ sets)
    (g : Generator) :
    ((g.artifacts set).map (·.name)).Nodup ∧
    (∀ artifact ∈ g.artifacts set,
      artifact.entity = some set.entity ∧ isGenerated artifact.name = true) ∧
    (∃ creations : List Creation,
      (g.artifacts set).map (fun artifact => creation? g.backend artifact.source) =
        creations.map some ∧
      (dropStatements g set.entity ((g.artifacts set).map (·.name))).map drop? =
        (creations.flatMap drops).map some) ∧
    ∀ entity existing, dropStatements g entity existing =
      dropStatements g entity (existing.filter isGenerated) := by
  have hplaced := Script.isPlaced_of_planAll h hplan hset
  have hascii := hplaced.isAscii_stem
  have hnames := Script.names_artifacts (g := g) hascii
  have hmarked : ∀ artifact ∈ g.artifacts set, isGenerated artifact.name = true := by
    intro artifact hartifact
    obtain ⟨ending, hending, heq⟩ := exists_ending_of_mem_artifacts hascii hartifact
    rw [heq]
    exact isGenerated_of_mem_endings hplaced hending
  refine ⟨?_, fun artifact hartifact =>
      ⟨Script.entity_of_mem_artifacts hartifact, hmarked artifact hartifact⟩,
    ⟨(g.artifacts set).map fun artifact => g.creation set artifact.name, ?_, ?_⟩,
    dropStatements_filter g⟩
  · have hoperations : set.operations.Nodup := by
      rw [Plan.operations_of_planAll hplan hset]
      exact Plan.nodup_enabledOperations settings'
    rw [hnames]
    exact (Script.nodup_endings hoperations).map fun _ _ heq => (String.append_right_inj _).mp heq
  · rw [List.map_map]
    exact List.map_congr_left fun artifact hartifact =>
      Script.creation_of_mem_artifacts hascii (Script.isInner_stem h hplan hset)
        (Script.isName_of_ownsTable hplaced.table) hartifact
  · -- All names have the mark, so none is filtered out, and each is dropped by its ending.
    have hfilter : ((g.artifacts set).map (·.name)).filter isGenerated =
        (g.artifacts set).map (·.name) := by
      refine List.filter_eq_self.mpr fun name hname => ?_
      obtain ⟨artifact, hartifact, rfl⟩ := List.mem_map.mp hname
      exact hmarked artifact hartifact
    rw [dropStatements, hfilter, List.map_flatMap, List.flatMap_map, List.flatMap_map,
      List.map_flatMap]
    refine List.flatMap_congr fun artifact hartifact => ?_
    obtain ⟨ending, hending, heq⟩ := exists_ending_of_mem_artifacts hascii hartifact
    rw [heq]
    exact drop?_dropTrigger hending

/-- The trigger on the positions of offers, and its function, are dropped as they were created. -/
theorem dropStatements_positions : ∃ a sets, ∃ set ∈ sets,
    analyze Script.marketModel "shop.Offers" {} = .ok a ∧
    planAll Script.marketModel a.descriptor {} = .ok sets ∧
    (Generator.artifacts ⟨.postgres, false⟩ set).map (·.name) =
      ["shop_items_ct_positions_trigger"] ∧
    ∃ creations : List Creation,
      (Generator.artifacts ⟨.postgres, false⟩ set).map
        (fun artifact => creation? .postgres artifact.source) = creations.map some ∧
      (dropStatements ⟨.postgres, false⟩ set.entity
        ((Generator.artifacts ⟨.postgres, false⟩ set).map (·.name))).map drop? =
          (creations.flatMap drops).map some := by
  have hrun : ((analyze Script.marketModel "shop.Offers" {}).toOption.bind fun a =>
      (planAll Script.marketModel a.descriptor {}).toOption.map fun sets =>
        sets.map fun set => (Generator.artifacts ⟨.postgres, false⟩ set).map (·.name)) =
      some [["shop_items_ct_positions_trigger"]] := by
    decide +kernel
  cases ha : analyze Script.marketModel "shop.Offers" {} with
  | error fault =>
      rw [ha] at hrun
      cases hrun
  | ok a =>
      rw [ha] at hrun
      obtain ⟨sets, hplan, hnames⟩ := Option.map_eq_some_iff.mp hrun
      cases hsets : planAll Script.marketModel a.descriptor {} with
      | error fault =>
          rw [hsets] at hplan
          cases hplan
      | ok sets' =>
          rw [hsets] at hplan
          cases hplan
          obtain ⟨set, rfl, hname⟩ := List.map_eq_singleton_iff.mp hnames
          obtain ⟨-, -, hdropped, -⟩ :=
            dropStatements_artifacts ha hsets List.mem_cons_self ⟨.postgres, false⟩
          exact ⟨a, [set], set, List.mem_cons_self, rfl, hsets, hname, hdropped⟩

end ChangeTracking.Deploy
