import ChangeTracking.Proofs.Plan.Spellings
import ChangeTracking.Proofs.Sql.Lowering
import ChangeTracking.Proofs.Text.Marks

/-!
# Parameters and their question marks

A fragment whose texts have no question marks of their own is sent with one question mark for
each parameter, in the order of the parameters.  Putting the host expressions back in their
places gives the text that a dialect writes which has no parameters at all.
-/

namespace ChangeTracking.Sql

open Plan (Expr Guard RowRole Spells)
open Text (Unmarked filled fillMarks)
open Tracking (ValueClass)

namespace Fragment

/-! ## Pieces -/

variable {f g : Fragment}

/-- Induction over the pieces of a fragment. -/
@[elab_as_elim] theorem induction {motive : Fragment → Prop} (nil : motive ⟨[]⟩)
    (plain : ∀ text f, motive f → motive (ofText text ++ f))
    (parameter : ∀ host f, motive f → motive (ofParameter host ++ f)) (f : Fragment) :
    motive f := by
  obtain ⟨pieces⟩ := f
  induction pieces with
  | nil => exact nil
  | cons piece pieces ih =>
      cases piece with
      | plain text => exact plain text ⟨pieces⟩ ih
      | parameter host => exact parameter host ⟨pieces⟩ ih

theorem sent_nil : (⟨[]⟩ : Fragment).sent = "" := rfl

theorem parameters_nil : (⟨[]⟩ : Fragment).parameters = [] := rfl

theorem sent_ofParameter (host : String) : (ofParameter host).sent = "?" := by
  simp [sent, ofParameter]

theorem spliced_append : (f ++ g).spliced = f.spliced ++ g.spliced := by
  rw [spliced, pieces_append, List.map_append, String.join_append, spliced, spliced]

theorem spliced_ofText (text : String) : (ofText text).spliced = text := by
  simp [spliced, ofText]

theorem spliced_ofParameter (host : String) : (ofParameter host).spliced = host := by
  simp [spliced, ofParameter]

@[simp] theorem parameters_append : (f ++ g).parameters = f.parameters ++ g.parameters := by
  rw [parameters, pieces_append, List.filterMap_append, parameters, parameters]

@[simp] theorem parameters_ofText (text : String) : (ofText text).parameters = [] := rfl

@[simp] theorem parameters_ofParameter (host : String) :
    (ofParameter host).parameters = [host] := rfl

theorem parameters_join (separator : String) (fs : List Fragment) :
    (join separator fs).parameters = fs.flatMap parameters := by
  induction fs with
  | nil => rfl
  | cons f fs ih =>
      cases fs with
      | nil => simp [join]
      | cons g rest =>
          rw [join, parameters_append, parameters_append, ih, parameters_ofText, List.append_nil]
          rfl

/-- The texts of the fragment have no question marks. -/
def IsUnmarked (f : Fragment) : Prop := ∀ text, Piece.plain text ∈ f.pieces → Unmarked text

@[simp] theorem isUnmarked_append : (f ++ g).IsUnmarked ↔ f.IsUnmarked ∧ g.IsUnmarked := by
  simp only [IsUnmarked, pieces_append, List.mem_append, or_imp, forall_and]

@[simp] theorem isUnmarked_ofText {text : String} : (ofText text).IsUnmarked ↔ Unmarked text := by
  simp [IsUnmarked, ofText]

@[simp] theorem isUnmarked_ofParameter (host : String) : (ofParameter host).IsUnmarked := by
  simp [IsUnmarked, ofParameter]

theorem isUnmarked_join {separator : String} (hseparator : Unmarked separator)
    {fs : List Fragment} (h : ∀ f ∈ fs, f.IsUnmarked) : (join separator fs).IsUnmarked := by
  induction fs with
  | nil => exact fun _ hmem => absurd hmem List.not_mem_nil
  | cons f fs ih =>
      obtain ⟨hf, hfs⟩ := List.forall_mem_cons.mp h
      cases fs with
      | nil => exact hf
      | cons g rest =>
          rw [join, isUnmarked_append, isUnmarked_append, isUnmarked_ofText]
          exact ⟨⟨hf, hseparator⟩, ih hfs⟩

/-! ## Filling in the parameters -/

/-- There are as many question marks as parameters. -/
theorem IsUnmarked.count_sent (h : f.IsUnmarked) :
    f.sent.toList.count '?' = f.parameters.length := by
  -- Part by part: only parameters bring question marks, and each brings one.
  induction f using Fragment.induction with
  | nil => rfl
  | plain text f ih =>
      obtain ⟨htext, hf⟩ := isUnmarked_append.mp h
      rw [sent_append, sent_ofText, String.toList_append, List.count_append,
        List.count_eq_zero.mpr (isUnmarked_ofText.mp htext), Nat.zero_add, ih hf,
        parameters_append, parameters_ofText, List.nil_append]
  | parameter host f ih =>
      have hmark : (ofParameter host).sent.toList = ['?'] := by rw [sent_ofParameter]; rfl
      rw [sent_append, String.toList_append, hmark, List.count_append,
        ih (isUnmarked_append.mp h).2, parameters_append, parameters_ofParameter,
        List.length_append]
      rfl

/-- The question marks stand where the host expressions belong. -/
theorem IsUnmarked.filled_sent (h : f.IsUnmarked) : filled f.sent f.parameters = f.spliced := by
  rw [← String.toList_inj, filled, String.toList_ofList]
  induction f using Fragment.induction with
  | nil => rfl
  | plain text f ih =>
      obtain ⟨htext, hf⟩ := isUnmarked_append.mp h
      rw [sent_append, sent_ofText, String.toList_append, parameters_append, parameters_ofText,
        List.nil_append, Text.fillMarks_append_of_not_mem (isUnmarked_ofText.mp htext), ih hf,
        spliced_append, spliced_ofText, String.toList_append]
  | parameter host f ih =>
      have hmark : (ofParameter host).sent.toList = ['?'] := by rw [sent_ofParameter]; rfl
      rw [sent_append, String.toList_append, hmark, parameters_append, parameters_ofParameter,
        List.singleton_append, List.singleton_append, fillMarks, if_pos rfl,
        ih (isUnmarked_append.mp h).2, spliced_append, spliced_ofParameter, String.toList_append]

end Fragment

/-! ## Host expressions in place of parameters -/

/-- The host expression as text. -/
def Piece.inline : Piece → Piece
  | .plain text => .plain text
  | .parameter host => .plain host

namespace Fragment

/-- The fragment with host expressions in its text in place of its parameters. -/
def inline (f : Fragment) : Fragment := ⟨f.pieces.map Piece.inline⟩

@[simp] theorem inline_append (f g : Fragment) : (f ++ g).inline = f.inline ++ g.inline :=
  congrArg Fragment.mk List.map_append

@[simp] theorem inline_ofText (text : String) : (ofText text).inline = ofText text := rfl

theorem inline_join (separator : String) (fs : List Fragment) :
    (join separator fs).inline = join separator (fs.map inline) := by
  induction fs with
  | nil => rfl
  | cons f fs ih =>
      cases fs with
      | nil => rfl
      | cons g rest => rw [join, inline_append, inline_append, inline_ofText, ih]; rfl

theorem sent_inline (f : Fragment) : f.inline.sent = f.spliced := by
  rw [sent, spliced, inline, List.map_map]
  refine congrArg String.join (List.map_congr_left fun piece _ => ?_)
  cases piece <;> rfl

end Fragment

namespace Dialect

/-- The dialect that writes host expressions where the other has parameters for row values and
locals, and is the same otherwise. -/
def inlined (d : Dialect) : Dialect :=
  { d with
    rowColumn := fun row column => (d.rowColumn row column).inline
    localValue := fun name => (d.localValue name).inline }

example (quoted : Bool) (name : String) :
    (h2 quoted).inlined.localValue name = ⟨[.plain "CAST(", .plain name, .plain " AS VARCHAR)"]⟩ :=
  rfl

end Dialect

open Dialect (h2)

section Inlining

variable {quoted : Bool}

/-- The other dialect writes the term with host expressions in place of parameters. -/
def Term.Inlines (quoted : Bool) (t : Term) : Prop :=
  t.fragment (h2 quoted).inlined = (t.fragment (h2 quoted)).inline

/-- The other dialect writes the test with host expressions in place of parameters. -/
def Test.Inlines (quoted : Bool) (t : Test) : Prop :=
  Term.testFragment (h2 quoted).inlined t = (Term.testFragment (h2 quoted) t).inline

theorem inline_fragments {ts : List Term} (h : ∀ t ∈ ts, t.Inlines quoted) :
    (Term.fragments (h2 quoted) ts).map Fragment.inline =
      Term.fragments (h2 quoted).inlined ts := by
  rw [Term.fragments_eq_map, Term.fragments_eq_map, List.map_map]
  exact List.map_congr_left fun t ht => (h t ht).symm

theorem inline_testFragments {ts : List Test} (h : ∀ t ∈ ts, t.Inlines quoted) :
    (Term.testFragments (h2 quoted) ts).map Fragment.inline =
      Term.testFragments (h2 quoted).inlined ts := by
  rw [Term.testFragments_eq_map, Term.testFragments_eq_map, List.map_map]
  exact List.map_congr_left fun t ht => (h t ht).symm

theorem inline_branchFragment {branches : List (Test × Term)}
    (h : ∀ b ∈ branches, b.1.Inlines quoted ∧ b.2.Inlines quoted) :
    (Term.branchFragment (h2 quoted) branches).inline =
      Term.branchFragment (h2 quoted).inlined branches := by
  induction branches with
  | nil => rfl
  | cons b branches ih =>
      obtain ⟨⟨htest, hvalue⟩, hbranches⟩ := List.forall_mem_cons.mp h
      rw [Term.branchFragment, Term.branchFragment, htest, hvalue, ← ih hbranches]
      simp only [Fragment.inline_append, Fragment.inline_ofText]

theorem inherits_inlines : Term.Inherits (Term.Inlines quoted) (Test.Inlines quoted) where
  null := rfl
  literal _ _ := rfl
  concat ts h := by
    rw [Term.Inlines, Term.fragment, Term.fragment, Dialect.concat, Dialect.concat,
      Fragment.inline_join, inline_fragments h]
  coalesce ts h := by
    rw [Term.Inlines, Term.fragment, Term.fragment, ← inline_fragments h]
    simp [Dialect.coalesce, Fragment.inline_join]
  nullIfEmpty t h := by
    rw [Term.Inlines, Term.fragment, Term.fragment, h]
    simp [Dialect.nullIfEmpty]
  substring t start count h := by
    rw [Term.Inlines, Term.fragment, Term.fragment, h]
    cases count <;> simp [Dialect.substring, Dialect.inlined]
  cast valueClass t h := by
    rw [Term.Inlines, Term.fragment, Term.fragment, h]
    simp [h2, Dialect.inlined]
  choose branches otherwise hbranches h := by
    rw [Term.Inlines, Term.fragment, Term.fragment, h, ← inline_branchFragment hbranches]
    simp
  constant value := by cases value <;> rfl
  isNull t h := by
    rw [Test.Inlines, Term.testFragment, Term.testFragment, h]
    simp
  isNotNull t h := by
    rw [Test.Inlines, Term.testFragment, Term.testFragment, h]
    simp
  equal left right hleft hright := by
    rw [Test.Inlines, Term.testFragment, Term.testFragment, hleft, hright]
    simp
  unequal left right hleft hright := by
    rw [Test.Inlines, Term.testFragment, Term.testFragment, hleft, hright]
    simp
  isTrue t h := by
    rw [Test.Inlines, Term.testFragment, Term.testFragment, h]
    simp [Dialect.isTrue, h2, Dialect.inlined]
  longerThan limit t h := by
    rw [Test.Inlines, Term.testFragment, Term.testFragment, h]
    simp [Dialect.length]
  conjunction tests h := by
    rw [Test.Inlines, Term.testFragment, Term.testFragment, Fragment.inline_join,
      inline_testFragments h]
  disjunction tests h := by
    rw [Test.Inlines, Term.testFragment, Term.testFragment, Fragment.inline_join,
      inline_testFragments h]
  negation t h := by
    rw [Test.Inlines, Term.testFragment, Term.testFragment, h]
    simp
  parens t h := by
    rw [Test.Inlines, Term.testFragment, Term.testFragment, h]
    simp

/-- Rows, locals and look-ups are written with host expressions in place of parameters. -/
theorem startsWith_inlines (e : Expr) : Term.StartsWith (h2 quoted) (Term.Inlines quoted) e := by
  cases e with
  | lookup entity name filters =>
      intro terms _ hterms
      have hfilters : (Term.filterFragments (h2 quoted) terms).map Fragment.inline =
          Term.filterFragments (h2 quoted).inlined terms := by
        rw [Term.filterFragments_eq_map, Term.filterFragments_eq_map, List.map_map]
        refine List.map_congr_left fun f hf => ?_
        rw [hterms f hf]
        exact Fragment.inline_append _ _
      rw [Term.Inlines, Term.fragment, Term.fragment, ← hfilters]
      simp only [Fragment.inline_append, Fragment.inline_ofText, Fragment.inline_join]
      rfl
  | text value => exact (rfl : (Term.literal value).Inlines quoted)
  | column row name => exact (rfl : (Term.rowColumn row name).Inlines quoted)
  | «variable» name => exact (rfl : (Term.localValue name).Inlines quoted)
  | locale => exact (rfl : (Term.setting _).Inlines quoted)
  | _ => trivial

theorem inlines_ofExpr (e : Expr) : (Term.ofExpr (h2 quoted) e).Inlines quoted :=
  inherits_inlines.ofExpr rfl fun t _ => startsWith_inlines t

theorem render_inlined (e : Expr) :
    (h2 quoted).inlined.render e = ((h2 quoted).render e).inline := by
  have hkey : (h2 quoted).inlined.localeKey = (h2 quoted).localeKey := rfl
  have hranks : (h2 quoted).inlined.ranksAlternatives = (h2 quoted).ranksAlternatives := rfl
  rw [Dialect.render, Term.ofExpr_congr hkey hranks]
  exact inlines_ofExpr e

theorem renderGuard_inlined (g : Guard) :
    (h2 quoted).inlined.renderGuard g = ((h2 quoted).renderGuard g).inline := by
  have hkey : (h2 quoted).inlined.localeKey = (h2 quoted).localeKey := rfl
  have hranks : (h2 quoted).inlined.ranksAlternatives = (h2 quoted).ranksAlternatives := rfl
  rw [Dialect.renderGuard, Test.ofGuard_congr hkey hranks]
  exact inherits_inlines.ofGuard (fun e _ => inlines_ofExpr e) fun _ _ => rfl

end Inlining

/-! ## Question marks of a dialect's own -/

section Marks

variable {quoted : Bool}

theorem foldVariableChar_ne (c : Char) : foldVariableChar c ≠ '?' := by
  unfold foldVariableChar
  split
  · rename_i hletter
    have hname : Naming.isNameChar c = true := by simp [Naming.isNameChar, Naming.isInner, hletter]
    refine Text.forall_ascii (p := fun c => c.toLower = '?' → c.isAlphanum = false) ?_
      (Naming.lt_of_isNameChar hname) |>.mt ?_
    · decide
    · simp [hletter]
  · decide

theorem unmarked_userVariable (key : String) : Unmarked (userVariable key) := by
  rw [Unmarked, userVariable, String.toList_ofList, List.mem_cons, List.mem_map]
  rintro (hmark | ⟨c, -, hmark⟩)
  · exact absurd hmark (by decide)
  · exact foldVariableChar_ne c hmark

namespace Dialect

theorem unmarked_tableName {entity : String} (h : Unmarked entity) :
    Unmarked ((h2 quoted).tableName entity) := by
  refine Unmarked.sqlIdentifier ?_
  unfold catalogTable tableStem
  split
  · exact h
  · exact (h.replaceChar '.' (by decide)).upperCase

theorem unmarked_columnName {column : String} (h : Unmarked column) :
    Unmarked ((h2 quoted).columnName column) := by
  refine Unmarked.sqlIdentifier ?_
  unfold catalogColumn
  split
  · exact h
  · exact h.upperCase

end Dialect

/-- The text of the term has no question marks but those of parameters. -/
def Term.IsUnmarked (quoted : Bool) (t : Term) : Prop := (t.fragment (h2 quoted)).IsUnmarked

/-- The text of the test has no question marks but those of parameters. -/
def Test.IsUnmarked (quoted : Bool) (t : Test) : Prop :=
  (Term.testFragment (h2 quoted) t).IsUnmarked

theorem Term.IsUnmarked.fragment {t : Term} (h : t.IsUnmarked quoted) :
    (t.fragment (h2 quoted)).IsUnmarked :=
  h

theorem isUnmarked_fragments {ts : List Term} (h : ∀ t ∈ ts, t.IsUnmarked quoted) :
    ∀ f ∈ Term.fragments (h2 quoted) ts, f.IsUnmarked := by
  rw [Term.fragments_eq_map]
  exact List.forall_mem_map.mpr h

theorem isUnmarked_testFragments {ts : List Test} (h : ∀ t ∈ ts, t.IsUnmarked quoted) :
    ∀ f ∈ Term.testFragments (h2 quoted) ts, f.IsUnmarked := by
  rw [Term.testFragments_eq_map]
  exact List.forall_mem_map.mpr h

theorem isUnmarked_branchFragment {branches : List (Test × Term)}
    (h : ∀ b ∈ branches, b.1.IsUnmarked quoted ∧ b.2.IsUnmarked quoted) :
    (Term.branchFragment (h2 quoted) branches).IsUnmarked := by
  induction branches with
  | nil => exact fun _ hmem => absurd hmem List.not_mem_nil
  | cons b branches ih =>
      obtain ⟨⟨htest, hvalue⟩, hbranches⟩ := List.forall_mem_cons.mp h
      have hwhen : Unmarked " WHEN " := by decide
      have hthen : Unmarked " THEN " := by decide
      simp only [Term.branchFragment, Fragment.isUnmarked_append, Fragment.isUnmarked_ofText]
      exact ⟨⟨⟨⟨hwhen, htest⟩, hthen⟩, hvalue⟩, ih hbranches⟩

theorem inherits_isUnmarked :
    Term.Inherits (Term.IsUnmarked quoted) (Test.IsUnmarked quoted) where
  null := Fragment.isUnmarked_ofText.mpr (by decide)
  literal value hvalue := by
    have hunmarked : ∀ value ∈ Term.addedTexts, Unmarked value := by decide
    exact Fragment.isUnmarked_ofText.mpr (hunmarked value hvalue).sqlLiteral
  concat ts h := Fragment.isUnmarked_join (by decide) (isUnmarked_fragments h)
  coalesce ts h := by
    have hjoin : (Fragment.join ", " (Term.fragments (h2 quoted) ts)).IsUnmarked :=
      Fragment.isUnmarked_join (by decide) (isUnmarked_fragments h)
    simpa +decide [Term.IsUnmarked, Term.fragment, Dialect.coalesce] using hjoin
  nullIfEmpty t h := by
    simpa +decide [Term.IsUnmarked, Term.fragment, Dialect.nullIfEmpty] using h
  substring t start count h := by
    have hname : Unmarked (h2 quoted).substringName := show Unmarked "SUBSTRING" by decide
    cases count <;>
      simpa +decide [Term.IsUnmarked, Term.fragment, Dialect.substring, hname] using h
  cast valueClass t h := by simpa +decide [Term.IsUnmarked, Term.fragment, h2] using h
  choose branches otherwise hbranches h := by
    simpa +decide [Term.IsUnmarked, Term.fragment] using
      And.intro (isUnmarked_branchFragment hbranches) h
  constant value := by cases value <;> exact Fragment.isUnmarked_ofText.mpr (by decide)
  isNull t h := by simpa +decide [Test.IsUnmarked, Term.testFragment] using h.fragment
  isNotNull t h := by simpa +decide [Test.IsUnmarked, Term.testFragment] using h.fragment
  equal left right hleft hright := by
    simpa +decide [Test.IsUnmarked, Term.testFragment] using
      And.intro hleft.fragment hright.fragment
  unequal left right hleft hright := by
    simpa +decide [Test.IsUnmarked, Term.testFragment] using
      And.intro hleft.fragment hright.fragment
  isTrue t h := by
    refine Fragment.isUnmarked_append.mpr ⟨h, ?_⟩
    simp +decide
  longerThan limit t h := by
    simpa +decide [Test.IsUnmarked, Term.testFragment, Dialect.length] using h.fragment
  conjunction tests h := Fragment.isUnmarked_join (by decide) (isUnmarked_testFragments h)
  disjunction tests h := Fragment.isUnmarked_join (by decide) (isUnmarked_testFragments h)
  negation t h := by simpa +decide [Test.IsUnmarked, Term.testFragment] using h
  parens t h := by simpa +decide [Test.IsUnmarked, Term.testFragment] using h

theorem isUnmarked_parameter (host : String) :
    (.ofText "CAST(" ++ .ofParameter host ++ .ofText " AS VARCHAR)" : Fragment).IsUnmarked := by
  simp +decide

/-- The spellings in the expression bring no question marks of their own. -/
theorem startsWith_isUnmarked {e : Expr} (h : Spells Unmarked e) :
    Term.StartsWith (h2 quoted) (Term.IsUnmarked quoted) e := by
  cases e with
  | lookup entity name filters =>
      obtain ⟨hentity, hname, hfilters⟩ := h
      intro terms hnames hterms
      have hcolumn : ∀ f ∈ terms, Unmarked f.1 := by
        have hall : ∀ column ∈ terms.map Prod.fst, Unmarked column := by
          rw [hnames]
          exact List.forall_mem_map.mpr hfilters
        exact List.forall_mem_map.mp hall
      have hconditions : ∀ f ∈ Term.filterFragments (h2 quoted) terms, f.IsUnmarked := by
        rw [Term.filterFragments_eq_map]
        refine List.forall_mem_map.mpr fun f hf => ?_
        simpa +decide using
          And.intro (Dialect.unmarked_columnName (hcolumn f hf)) (hterms f hf).fragment
      have hjoin : (Fragment.join " AND " _).IsUnmarked :=
        Fragment.isUnmarked_join (by decide) hconditions
      simpa +decide [Term.IsUnmarked, Term.fragment] using
        And.intro (And.intro (Dialect.unmarked_columnName hname)
          (Dialect.unmarked_tableName hentity)) hjoin
  | text value => exact Fragment.isUnmarked_ofText.mpr (Unmarked.sqlLiteral h)
  | column row name => exact isUnmarked_parameter _
  | «variable» name => exact isUnmarked_parameter name
  | locale => exact Fragment.isUnmarked_ofText.mpr (unmarked_userVariable _)
  | _ => trivial

theorem isUnmarked_ofExpr {e : Expr} (h : e.IsSpelled Unmarked) :
    (Term.ofExpr (h2 quoted) e).IsUnmarked quoted :=
  inherits_isUnmarked.ofExpr rfl (h.mono fun _ ht => startsWith_isUnmarked ht)

theorem isUnmarked_render {e : Expr} (h : e.IsSpelled Unmarked) :
    ((h2 quoted).render e).IsUnmarked :=
  isUnmarked_ofExpr h

theorem isUnmarked_renderGuard {g : Guard} (h : ∀ e ∈ g.values, e.IsSpelled Unmarked) :
    ((h2 quoted).renderGuard g).IsUnmarked :=
  inherits_isUnmarked.ofGuard (fun e he => isUnmarked_ofExpr (h e he)) fun name _ =>
    Fragment.isUnmarked_ofText.mpr (unmarked_userVariable name)

end Marks

end ChangeTracking.Sql
