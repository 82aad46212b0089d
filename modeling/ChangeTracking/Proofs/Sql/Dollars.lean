import ChangeTracking.Proofs.Plan.Spellings
import ChangeTracking.Proofs.Skip.Names
import ChangeTracking.Proofs.Sql.Lowering
import ChangeTracking.Proofs.Text.Dollars
import ChangeTracking.Sql.Term

/-!
# Dollar signs in SQL

Names and literals stand between quotes, and nothing else that a dialect writes has dollar
signs.  So the text of an expression is tame, and so is what the host program supplies as a
parameter, wherever the names in the expression have no two dollar signs in a row.
-/

namespace ChangeTracking.Sql

open Plan (Expr Guard RowRole Spells)
open Text (IsAscii SingleDollars Tame)
open Tracking (ValueClass)

/-! ## Fragments -/

/-- The text of the piece is tame, or what the host program supplies for it. -/
def Piece.IsTame : Piece → Prop
  | .plain text => Tame text
  | .parameter host => Tame host

namespace Fragment

/-- All pieces of the fragment are tame. -/
def IsTame (f : Fragment) : Prop := ∀ piece ∈ f.pieces, piece.IsTame

theorem isTame_ofText {text : String} (h : Tame text) : (ofText text).IsTame :=
  List.forall_mem_singleton.mpr h

/-- A literal is tame if its characters are. -/
theorem isTame_ofChars {cs : List Char} (h : SingleDollars ('$' :: cs)) :
    (ofText (String.ofList cs)).IsTame :=
  isTame_ofText (Text.tame_ofList h)

theorem isTame_ofParameter {host : String} (h : Tame host) : (ofParameter host).IsTame :=
  List.forall_mem_singleton.mpr h

theorem IsTame.append {f g : Fragment} (hf : f.IsTame) (hg : g.IsTame) : (f ++ g).IsTame := by
  unfold IsTame
  rw [pieces_append]
  exact List.forall_mem_append.mpr ⟨hf, hg⟩

/-- A tame fragment is spliced in between what there is so far and the literal behind it. -/
theorem IsTame.splice {f g : Fragment} (hf : f.IsTame) (hg : g.IsTame) {cs : List Char}
    (hcs : SingleDollars ('$' :: cs)) : (f ++ g ++ .ofText (String.ofList cs) : Fragment).IsTame :=
  (hf.append hg).append (isTame_ofChars hcs)

theorem isTame_join {separator : String} (hseparator : Tame separator) {fs : List Fragment}
    (h : ∀ f ∈ fs, f.IsTame) : (join separator fs).IsTame := by
  induction fs with
  | nil => exact List.forall_mem_nil _
  | cons f fs ih =>
      obtain ⟨hf, hfs⟩ := List.forall_mem_cons.mp h
      cases fs with
      | nil => exact hf
      | cons g rest => exact (hf.append (isTame_ofText hseparator)).append (ih hfs)

/-- The text that is sent is tame: a parameter is sent as a question mark. -/
theorem IsTame.sent {f : Fragment} (h : f.IsTame) : Tame f.sent := by
  refine Text.tame_join fun text htext => ?_
  obtain ⟨piece, hpiece, rfl⟩ := List.mem_map.mp htext
  cases piece with
  | plain text => exact h _ hpiece
  | parameter host => exact show Tame "?" by decide

theorem IsTame.parameters {f : Fragment} (h : f.IsTame) : ∀ host ∈ f.parameters, Tame host := by
  intro host hhost
  obtain ⟨piece, hpiece, hsome⟩ := List.mem_filterMap.mp hhost
  cases piece with
  | plain text => cases hsome
  | parameter host' =>
      cases hsome
      exact h _ hpiece

end Fragment

/-! ## Names -/

/-- A tame text of ASCII characters, such as a name. -/
structure TameName (s : String) : Prop where
  ascii : IsAscii s
  tame : Tame s

instance : DecidablePred TameName := fun s =>
  decidable_of_iff (IsAscii s ∧ Tame s) ⟨fun h => ⟨h.1, h.2⟩, fun h => ⟨h.ascii, h.tame⟩⟩

theorem TameName.append {s t : String} (hs : TameName s) (ht : TameName t) : TameName (s ++ t) :=
  ⟨hs.ascii.append ht.ascii, hs.tame.append ht.tame⟩

theorem TameName.flat {s : String} (h : TameName s) : TameName (Text.replaceChar '.' "_" s) :=
  ⟨h.ascii.replaceChar '.' (by decide), h.tame.replaceChar (by decide) (by decide) (by decide)⟩

namespace Dialect

variable (backend : Backend) (quoted : Bool)

/-- Letter case makes no dollar signs. -/
theorem eq_dollar_of_letterCase {c : Char} (hc : c.toNat < 128)
    (h : letterCase backend c = '$') : c = '$' := by
  refine Text.forall_ascii (p := fun c => letterCase backend c = '$' → c = '$') ?_ hc h
  cases backend <;> decide +kernel

theorem tame_fold {s : String} (h : TameName s) : Tame ((Dialect.of backend quoted).fold s) := by
  obtain ⟨hascii, htame⟩ := h
  have hdollar : letterCase backend '$' = '$' := by cases backend <;> rfl
  have hfolded : '$' :: s.toList.map (letterCase backend) =
      ('$' :: s.toList).map (letterCase backend) := by rw [List.map_cons, hdollar]
  unfold Tame SingleDollars
  rw [toList_fold backend quoted hascii, hfolded, List.isChain_map]
  have hascii : ∀ c ∈ '$' :: s.toList, c.toNat < 128 :=
    List.forall_mem_cons.mpr ⟨by decide, hascii⟩
  refine htame.imp_of_mem_imp fun c d hc hd hne hboth => hne ?_
  exact ⟨eq_dollar_of_letterCase backend (hascii c hc) hboth.1,
    eq_dollar_of_letterCase backend (hascii d hd) hboth.2⟩

/-! ## Spelling rules -/

theorem isTame_call {front key back : String} (hfront : Tame front)
    (hkey : SingleDollars key.toList) (hback : Tame back) :
    (.ofText front ++ .ofText (Text.sqlLiteral key) ++ .ofText back : Fragment).IsTame :=
  ((Fragment.isTame_ofText hfront).append
    (Fragment.isTame_ofText (Text.tame_sqlLiteral hkey))).append (Fragment.isTame_ofText hback)

theorem isTame_parameter {host : String} (h : Tame host) :
    (Fragment.ofText "CAST(" ++ Fragment.ofParameter host ++ " AS VARCHAR)" : Fragment).IsTame :=
  (Fragment.isTame_ofChars (by decide)).splice (Fragment.isTame_ofParameter h) (by decide)

theorem isTame_rowColumn (row : RowRole) {column : String} (h : TameName column) :
    ((Dialect.of backend quoted).rowColumn row column).IsTame := by
  have hfolded (backend : Backend) : SingleDollars
      (if quoted then column else (Dialect.of backend quoted).fold column).toList := by
    split
    · exact h.tame.singleDollars
    · exact (tame_fold backend quoted h).singleDollars
  cases backend with
  | sqlite =>
      refine Fragment.IsTame.append ?_
        (Fragment.isTame_ofText (Text.tame_sqlIdentifier h.tame.singleDollars))
      cases row <;> exact Fragment.isTame_ofChars (by decide)
  | hana =>
      refine Fragment.IsTame.append ?_
        (Fragment.isTame_ofText (Text.tame_sqlIdentifier (hfolded .hana)))
      cases row <;> exact Fragment.isTame_ofChars (by decide)
  | postgres =>
      refine Fragment.IsTame.append ?_
        (Fragment.isTame_ofText (Text.tame_sqlIdentifier (hfolded .postgres)))
      cases row <;> exact Fragment.isTame_ofChars (by decide)
  | h2 =>
      refine isTame_parameter (Text.Tame.append (Text.Tame.append ?_
        (Text.tame_javaLiteral (hfolded .h2))) (by decide))
      cases row <;> decide

theorem isTame_localValue {name : String} (h : TameName name) :
    ((Dialect.of backend quoted).localValue name).IsTame := by
  cases backend with
  | sqlite => exact isTame_call (by decide) h.tame.singleDollars (by decide)
  | hana =>
      exact (Fragment.isTame_ofChars (by decide)).append
        (Fragment.isTame_ofText (tame_fold .hana quoted h))
  | h2 => exact isTame_parameter h.tame
  | postgres => exact Fragment.isTame_ofText (Text.Tame.append (by decide) h.tame)

theorem tame_userVariable (key : String) : Tame (userVariable key) := by
  refine Text.tame_of_not_mem fun hmem => ?_
  rw [userVariable, String.toList_ofList, List.mem_cons] at hmem
  obtain heq | hmem := hmem
  · exact absurd heq (by decide)
  · obtain ⟨c, -, heq⟩ := List.mem_map.mp hmem
    unfold foldVariableChar at heq
    split at heq
    · rename_i hletter
      have hname : Naming.isNameChar c = true := by
        rw [Naming.isNameChar, Naming.isInner, hletter, Bool.true_or, Bool.true_or, Bool.true_or]
      rw [eq_dollar_of_letterCase .postgres (Naming.lt_of_isNameChar hname) heq] at hletter
      exact absurd hletter (by decide)
    · exact absurd heq (by decide)

theorem isTame_sessionValue {key : String} (h : SingleDollars key.toList) :
    ((Dialect.of backend quoted).sessionValue key).IsTame := by
  cases backend with
  | h2 => exact Fragment.isTame_ofText (tame_userVariable key)
  | sqlite => exact isTame_call (by decide) h (by decide)
  | hana => exact isTame_call (by decide) h (by decide)
  | postgres => exact isTame_call (by decide) h (by decide)

theorem isTame_coalesce {parts : List Fragment} (h : ∀ f ∈ parts, f.IsTame) :
    (coalesce parts).IsTame :=
  (Fragment.isTame_ofChars (by decide)).splice (Fragment.isTame_join (by decide) h) (by decide)

theorem isTame_nullIfEmpty {value : Fragment} (h : value.IsTame) : (nullIfEmpty value).IsTame :=
  (Fragment.isTame_ofChars (by decide)).splice h (by decide)

theorem isTame_length {value : Fragment} (h : value.IsTame) : (length value).IsTame :=
  (Fragment.isTame_ofChars (by decide)).splice h (by decide)

theorem isTame_textCast (valueClass : ValueClass) {value : Fragment} (h : value.IsTame) :
    ((Dialect.of backend quoted).textCast valueClass value).IsTame := by
  have hcall {front back : String} (hfront : Tame front) (hback : Tame back) :
      (.ofText front ++ value ++ .ofText back : Fragment).IsTame :=
    ((Fragment.isTame_ofText hfront).append h).append (Fragment.isTame_ofText hback)
  cases backend with
  | sqlite =>
      show (if valueClass.isTemporal then value else _).IsTame
      split
      · exact h
      · exact hcall (by decide) (by decide)
  | hana => exact hcall (by decide) (by decide)
  | h2 => exact hcall (by decide) (by decide)
  | postgres => exact hcall (by decide) (by decide)

theorem isTame_isTrue {value : Fragment} (h : value.IsTame) :
    ((Dialect.of backend quoted).isTrue value).IsTame := by
  have hin (constants : String) (hconstants : Tame constants) :
      (value ++ (.ofText " IN (" ++ .ofText constants ++ .ofText ")") : Fragment).IsTame :=
    h.append ((Fragment.isTame_ofChars (by decide)).splice (Fragment.isTame_ofText hconstants)
      (by decide))
  cases backend with
  | sqlite => exact hin _ (by decide)
  | h2 => exact hin _ (by decide)
  | hana => exact h.append (Fragment.isTame_ofChars (by decide))
  | postgres => exact h.append (Fragment.isTame_ofChars (by decide))

/-- The acting user and the transaction are session values, or functions of the database. -/
theorem isTame_actor : (Dialect.of backend quoted).currentUser.IsTame ∧
    (Dialect.of backend quoted).transactionId.IsTame := by
  cases backend with
  | sqlite =>
      exact ⟨isTame_call (by decide) (by decide) (by decide),
        isTame_call (by decide) (by decide) (by decide)⟩
  | hana =>
      exact ⟨isTame_call (by decide) (by decide) (by decide),
        Fragment.isTame_ofChars (by decide)⟩
  | h2 =>
      refine ⟨isTame_coalesce (List.forall_mem_cons.mpr ⟨?_, List.forall_mem_singleton.mpr ?_⟩), ?_⟩
      · exact Fragment.isTame_ofText (tame_userVariable _)
      · exact Fragment.isTame_ofChars (by decide)
      · exact Fragment.isTame_ofText (tame_userVariable _)
  | postgres =>
      refine ⟨isTame_coalesce (List.forall_mem_cons.mpr ⟨?_, List.forall_mem_singleton.mpr ?_⟩), ?_⟩
      · exact isTame_nullIfEmpty (isTame_call (by decide) (by decide) (by decide))
      · exact Fragment.isTame_ofChars (by decide)
      · exact Fragment.isTame_ofChars (by decide)

/-- Whatever the dialect writes is tame, if only the names in it are. -/
structure WritesTamely (d : Dialect) : Prop where
  fold : ∀ s, TameName s → Tame (d.fold s)
  rowColumn : ∀ row column, TameName column → (d.rowColumn row column).IsTame
  localValue : ∀ name, TameName name → (d.localValue name).IsTame
  sessionValue : ∀ key, SingleDollars key.toList → (d.sessionValue key).IsTame
  textCast : ∀ valueClass value, value.IsTame → (d.textCast valueClass value).IsTame
  isTrue : ∀ value, value.IsTame → (d.isTrue value).IsTame
  substringName : Tame d.substringName
  freshId : Tame d.freshId
  now : Tame d.now
  localeKey : SingleDollars d.localeKey.toList
  currentUser : d.currentUser.IsTame
  transactionId : d.transactionId.IsTame

theorem writesTamely_of : (Dialect.of backend quoted).WritesTamely where
  fold _ h := tame_fold backend quoted h
  rowColumn row _ h := isTame_rowColumn backend quoted row h
  localValue _ h := isTame_localValue backend quoted h
  sessionValue _ h := isTame_sessionValue backend quoted h
  textCast valueClass _ h := isTame_textCast backend quoted valueClass h
  isTrue _ h := isTame_isTrue backend quoted h
  substringName := by cases backend <;> cases quoted <;> decide
  freshId := by cases backend <;> cases quoted <;> decide
  now := by cases backend <;> cases quoted <;> decide
  localeKey := by cases backend <;> cases quoted <;> decide
  currentUser := (isTame_actor backend quoted).1
  transactionId := (isTame_actor backend quoted).2

variable {d : Dialect}

theorem WritesTamely.tableName (hd : d.WritesTamely) {entity : String} (h : TameName entity) :
    Tame (d.tableName entity) := by
  refine Text.tame_sqlIdentifier ?_
  unfold catalogTable tableStem
  split
  · exact h.tame.singleDollars
  · exact (hd.fold _ h.flat).singleDollars

theorem WritesTamely.columnName (hd : d.WritesTamely) {column : String} (h : TameName column) :
    Tame (d.columnName column) := by
  refine Text.tame_sqlIdentifier ?_
  unfold catalogColumn
  split
  · exact h.tame.singleDollars
  · exact (hd.fold _ h).singleDollars

theorem WritesTamely.setting (hd : d.WritesTamely) {key : String} (h : SingleDollars key.toList) :
    (d.setting key).IsTame := by
  unfold Dialect.setting
  split
  · exact isTame_nullIfEmpty (hd.sessionValue key h)
  · exact hd.sessionValue key h

theorem WritesTamely.substring (hd : d.WritesTamely) {value : Fragment} (h : value.IsTame)
    (start : Nat) (count : Option Nat) : (d.substring value start count).IsTame := by
  have hcomma : (.ofText ", " : Fragment).IsTame := Fragment.isTame_ofChars (by decide)
  have hnumber (n : Nat) : (.ofText (toString n) : Fragment).IsTame :=
    Fragment.isTame_ofText (Text.tame_toString n)
  have hopening := Fragment.isTame_ofText
    (hd.substringName.append (show Tame "(" by decide))
  refine (hopening.append h).append (((hcomma.append (hnumber start)).append ?_).append
    (Fragment.isTame_ofChars (by decide)))
  cases count with
  | none => exact Fragment.isTame_ofChars (by decide)
  | some n => exact hcomma.append (hnumber n)

end Dialect

/-! ## Terms and tests -/

section Terms

open Fragment (isTame_ofText isTame_ofChars isTame_join)

variable {d : Dialect}

/-- The text of the term is tame. -/
def Term.IsTame (d : Dialect) (t : Term) : Prop := (t.fragment d).IsTame

/-- The text of the test is tame. -/
def Test.IsTame (d : Dialect) (t : Test) : Prop := (Term.testFragment d t).IsTame

namespace Term

theorem isTame_literal {value : String} (h : SingleDollars value.toList) :
    (Term.literal value).IsTame d :=
  isTame_ofText (Text.tame_sqlLiteral h)

theorem isTame_fragments {ts : List Term} (h : ∀ t ∈ ts, t.IsTame d) :
    ∀ f ∈ fragments d ts, f.IsTame := by
  rw [fragments_eq_map]
  exact List.forall_mem_map.mpr h

theorem isTame_testFragments {ts : List Test} (h : ∀ t ∈ ts, t.IsTame d) :
    ∀ f ∈ testFragments d ts, f.IsTame := by
  rw [testFragments_eq_map]
  exact List.forall_mem_map.mpr h

theorem isTame_branchFragment {branches : List (Test × Term)}
    (h : ∀ b ∈ branches, b.1.IsTame d ∧ b.2.IsTame d) : (branchFragment d branches).IsTame := by
  induction branches with
  | nil => exact List.forall_mem_nil _
  | cons b branches ih =>
      obtain ⟨⟨htest, hvalue⟩, hbranches⟩ := List.forall_mem_cons.mp h
      exact (isTame_ofChars (by decide)).splice htest (by decide) |>.append hvalue
        |>.append (ih hbranches)

/-- Whatever the texts of terms and tests are put together with is tame. -/
theorem inherits_isTame (hd : d.WritesTamely) : Inherits (IsTame d) (Test.IsTame d) where
  null := isTame_ofChars (by decide)
  literal value hvalue := by
    have hsingle : ∀ value ∈ addedTexts, SingleDollars value.toList := by decide
    exact isTame_literal (hsingle value hvalue)
  concat _ h := isTame_join (by decide) (isTame_fragments h)
  coalesce _ h := Dialect.isTame_coalesce (isTame_fragments h)
  nullIfEmpty _ h := Dialect.isTame_nullIfEmpty h
  substring _ start count h := hd.substring h start count
  cast valueClass _ h := hd.textCast valueClass _ h
  choose _ _ hbranches h :=
    (isTame_ofChars (by decide)).splice (isTame_branchFragment hbranches) (by decide)
      |>.splice h (by decide)
  constant value := by cases value <;> exact isTame_ofChars (by decide)
  isNull _ h := h.append (isTame_ofChars (by decide))
  isNotNull _ h := h.append (isTame_ofChars (by decide))
  equal _ _ hleft hright := (hleft.append (isTame_ofChars (by decide))).append hright
  unequal _ _ hleft hright := (hleft.append (isTame_ofChars (by decide))).append hright
  isTrue _ h := hd.isTrue _ h
  longerThan limit _ h :=
    (Dialect.isTame_length h).append
      (isTame_ofText (Text.Tame.append (by decide) (Text.tame_toString limit)))
  conjunction _ h := isTame_join (by decide) (isTame_testFragments h)
  disjunction _ h := isTame_join (by decide) (isTame_testFragments h)
  negation _ h := (isTame_ofChars (by decide)).splice h (by decide)
  parens _ h := (isTame_ofChars (by decide)).splice h (by decide)

theorem isTame_lookup (hd : d.WritesTamely) {entity column : String} (hentity : TameName entity)
    (hcolumn : TameName column) {filters : List (String × Term)}
    (hnames : ∀ name ∈ filters.map Prod.fst, TameName name)
    (hvalues : ∀ f ∈ filters, f.2.IsTame d) :
    (Term.scalar (.from entity column filters)).IsTame d := by
  have hopening : Tame ("(SELECT " ++ d.columnName column ++ " FROM " ++ d.tableName entity
      ++ " WHERE ") :=
    (Text.tame_ofList (by decide)).splice (hd.columnName hcolumn) (by decide)
      |>.splice (hd.tableName hentity) (by decide)
  refine (isTame_ofText hopening).splice (isTame_join (by decide) ?_) (by decide)
  rw [filterFragments_eq_map]
  refine List.forall_mem_map.mpr fun f hf => ?_
  have hname := hd.columnName (List.forall_mem_map.mp hnames f hf)
  exact (isTame_ofText (hname.append (by decide))).append (hvalues f hf)

/-- Lowering starts with tame texts if the names in the expression are tame. -/
theorem startsWith_isTame (hd : d.WritesTamely) {e : Expr} (h : Spells TameName e) :
    StartsWith d (IsTame d) e := by
  cases e with
  | text value => exact isTame_literal h.tame.singleDollars
  | column row name => exact hd.rowColumn row name h
  | «variable» name => exact hd.localValue name h
  | locale => exact hd.setting hd.localeKey
  | lookup entity name filters =>
      obtain ⟨hentity, hname, hfilters⟩ := h
      intro terms hnames hterms
      refine isTame_lookup hd hentity hname ?_ hterms
      rw [hnames]
      exact List.forall_mem_map.mpr hfilters
  | _ => trivial

/-- The text of an expression is tame, unless alternatives are ranked in one query. -/
theorem isTame_ofExpr (hd : d.WritesTamely) (hranks : d.ranksAlternatives = false) {e : Expr}
    (h : e.IsSpelled TameName) : (ofExpr d e).IsTame d :=
  (inherits_isTame hd).ofExpr hranks (h.mono fun _ ht => startsWith_isTame hd ht)

end Term

/-! ## Guards -/

/-- The text of the guard is tame. -/
def GuardTame (d : Dialect) (g : Guard) : Prop := (Test.ofGuard d g).IsTame d

theorem guardTame_ofGuards {guards : List Guard} (h : ∀ g ∈ guards, GuardTame d g) :
    ∀ t ∈ Test.ofGuards d guards, t.IsTame d := by
  rw [Test.ofGuards_eq_map]
  exact List.forall_mem_map.mpr h

/-- Tame guards one behind another are tame, in parentheses. -/
theorem isTame_parens {separator : String} (hseparator : Tame separator) {guards : List Guard}
    (h : ∀ g ∈ guards, GuardTame d g) :
    (.ofText "(" ++ .join separator (Term.testFragments d (Test.ofGuards d guards)) ++ .ofText ")"
      : Fragment).IsTame :=
  (isTame_ofChars (by decide)).splice
    (isTame_join hseparator (Term.isTame_testFragments (guardTame_ofGuards h))) (by decide)

theorem guardTame_flag (hd : d.WritesTamely) {name : String} (h : SingleDollars name.toList) :
    GuardTame d (.flag name) :=
  (Term.inherits_isTame hd).flag (hd.sessionValue name h)

theorem guardTame_anyOf {guards : List Guard} (h : ∀ g ∈ guards, GuardTame d g) :
    GuardTame d (.anyOf guards) := by
  unfold Guard.anyOf
  split
  · exact h _ List.mem_cons_self
  · unfold GuardTame
    rw [Test.ofGuard, Test.anyOf]
    split
    · exact isTame_ofChars (by decide)
    · exact isTame_parens (by decide) h

theorem guardTame_allOf {guards : List Guard} (h : ∀ g ∈ guards, GuardTame d g) :
    GuardTame d (.allOf guards) := by
  unfold Guard.allOf
  split
  · exact h _ List.mem_cons_self
  · unfold GuardTame
    rw [Test.ofGuard, Test.allOf]
    split
    · exact isTame_ofChars (by decide)
    · exact isTame_parens (by decide) h

section Guards

variable (hd : d.WritesTamely) (hranks : d.ranksAlternatives = false)

include hd hranks

theorem guardTame_notNull {e : Expr} (h : e.IsSpelled TameName) : GuardTame d (.notNull e) :=
  Fragment.IsTame.append (Term.isTame_ofExpr hd hranks h) (isTame_ofChars (by decide))

theorem guardTame_changed {old new : Expr} (hold : old.IsSpelled TameName)
    (hnew : new.IsSpelled TameName) : GuardTame d (.changed old new) :=
  (Term.inherits_isTame hd).changed (Term.isTame_ofExpr hd hranks hold)
    (Term.isTame_ofExpr hd hranks hnew)

theorem guardTame_present {e : Expr} (h : e.IsSpelled TameName) : GuardTame d (.present e) := by
  unfold Guard.present
  split
  · rename_i columns hcolumns
    refine guardTame_allOf fun g hg => ?_
    obtain ⟨c, hc, rfl⟩ := List.mem_map.mp hg
    exact guardTame_notNull hd hranks
      (Expr.isSpelled_column (Expr.Everywhere.of_nullColumns h hcolumns c hc))
  · exact guardTame_notNull hd hranks h

/-- The guard of a column is tame: it tests the value or compares the watched columns, and asks
for the flag of the column. -/
theorem guardTame_guarded {s : Plan.TriggerSet} (h : s.IsSpelled TameName) {c : Plan.TrackedColumn}
    (hc : c ∈ s.columns) (hflag : SingleDollars c.skipFlag.toList) (op : Plan.Operation) :
    GuardTame d (c.guarded op) := by
  have hcondition : GuardTame d (c.condition op) := by
    cases op with
    | create => exact guardTame_present hd hranks (h.value hc .new)
    | delete => exact guardTame_present hd hranks (h.value hc .old)
    | update =>
        rw [Plan.TrackedColumn.condition]
        split
        · exact guardTame_changed hd hranks (h.value hc .old) (h.value hc .new)
        · refine guardTame_anyOf fun g hg => ?_
          obtain ⟨column, hcolumn, rfl⟩ := List.mem_map.mp hg
          have hname := h.watched c hc column hcolumn
          exact guardTame_changed hd hranks (Expr.isSpelled_column hname)
            (Expr.isSpelled_column hname)
  have hskip : GuardTame d (.negate (.flag c.skipFlag)) :=
    (Term.inherits_isTame hd).negation _ (guardTame_flag hd hflag)
  exact guardTame_allOf (List.forall_mem_cons.mpr ⟨hcondition, List.forall_mem_singleton.mpr hskip⟩)

end Guards

end Terms

end ChangeTracking.Sql
