/-!
# SQL fragments

Pieces of a statement: text as it is sent, and parameters, of which the text only shows
a question mark while the host program supplies the value.
-/

namespace ChangeTracking.Sql

/-- A piece of a statement. -/
inductive Piece
  | plain (text : String)
  /-- A parameter with the host expression that supplies its value. -/
  | parameter (host : String)
  deriving DecidableEq, Repr

/-- Pieces of a statement in order. -/
structure Fragment where
  pieces : List Piece
  deriving DecidableEq, Repr

namespace Fragment

def ofText (text : String) : Fragment := ⟨[.plain text]⟩

def ofParameter (host : String) : Fragment := ⟨[.parameter host]⟩

def append (a b : Fragment) : Fragment := ⟨a.pieces ++ b.pieces⟩

instance : Append Fragment := ⟨append⟩

instance : Coe String Fragment := ⟨ofText⟩

@[simp] theorem pieces_append (a b : Fragment) : (a ++ b).pieces = a.pieces ++ b.pieces := rfl

/-- The fragments with a text between each two. -/
def join (separator : String) : List Fragment → Fragment
  | [] => ⟨[]⟩
  | [f] => f
  | f :: g :: rest => f ++ ofText separator ++ join separator (g :: rest)

/-- The text that is sent to the database. -/
def sent (f : Fragment) : String :=
  String.join (f.pieces.map fun piece =>
    match piece with
    | .plain text => text
    | .parameter _ => "?")

theorem sent_append (a b : Fragment) : (a ++ b).sent = a.sent ++ b.sent := by
  rw [sent, pieces_append, List.map_append, String.join_append, sent, sent]

theorem sent_ofText (text : String) : (ofText text).sent = text := by
  simp [sent, ofText]

theorem sent_join (separator : String) (fs : List Fragment) :
    (join separator fs).sent = separator.intercalate (fs.map (·.sent)) := by
  induction fs with
  | nil => rfl
  | cons f fs ih =>
      cases fs with
      | nil => simp [join]
      | cons g rest =>
          rw [join, sent_append, sent_append, sent_ofText, ih, List.map_cons, List.map_cons,
            List.map_cons, String.intercalate_cons_cons]

/-- The host expressions of the parameters, in the order of their question marks. -/
def parameters (f : Fragment) : List String :=
  f.pieces.filterMap fun piece =>
    match piece with
    | .plain _ => none
    | .parameter host => some host

/-- The text with each host expression in the place of its question mark. -/
def spliced (f : Fragment) : String :=
  String.join (f.pieces.map fun piece =>
    match piece with
    | .plain text => text
    | .parameter host => host)

end Fragment

end ChangeTracking.Sql
