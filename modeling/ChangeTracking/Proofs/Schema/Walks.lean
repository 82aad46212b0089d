import ChangeTracking.Proofs.Schema.Routes

/-!
# Steps of a walk

At the first of several segments a walk stops, or it takes a hop and goes on with the segments
behind it from the entity that the hop reaches.  `Moves` says which of the two happens and when;
everything about whole walks follows from it by induction on the segments.
-/

namespace ChangeTracking.Schema

/-- What a walk does at the first of several segments. -/
inductive Move
  | stop (outcome : Except DeadEnd Route)
  /-- Go on from the entity that the hop reaches. -/
  | go (hop : Hop) (target : Entity)

/-- The flattened column of the segments, or else the dead end. -/
def flattenedOr (current : Entity) (segments : List String) (deadEnd : DeadEnd) :
    Except DeadEnd Route :=
  match flattened? current segments with
  | some route => .ok route
  | none => .error deadEnd

/-- Only a key is left behind the segment, and the association at the segment holds it in a
foreign-key column. -/
def HoldsKey (current : Entity) (segment next : String) (rest : List String) : Prop :=
  rest = [] ∧ ∃ element association, current.element? segment = some element ∧
    element.association = some association ∧ next ∈ association.keys

namespace Model

variable {m : Model} {path segment next : String} {budget : Nat} {current target : Entity}
  {rest : List String} {route : Route} {hop : Hop}

/-- The move at the first of several segments. -/
def move (m : Model) (path : String) (current : Entity) (segment next : String)
    (rest : List String) : Move :=
  match current.element? segment with
  | none =>
      .stop (flattenedOr current (segment :: next :: rest) (.notAnElement segment current.name))
  | some element =>
      match element.association with
      | none =>
          .stop (flattenedOr current (segment :: next :: rest) (.notARelationship segment path))
      | some association =>
          if rest.isEmpty && association.keys.contains next then
            .stop (.ok (keyStep current segment next))
          else
            match flattened? current (segment :: next :: rest) with
            | some route => .stop (.ok route)
            | none =>
                match m.hop segment association with
                | .error deadEnd => .stop (.error deadEnd)
                | .ok (hop, target) => .go hop target

/-- A walk makes its moves one after another, as long as the budget lasts. -/
theorem walk_cons (m : Model) (path : String) (budget : Nat) (current : Entity)
    (segment next : String) (rest : List String) :
    m.walk path budget current segment (next :: rest) =
      match m.move path current segment next rest with
      | .stop outcome => outcome
      | .go hop target =>
          match budget with
          | 0 => .error .tooManyHops
          | budget + 1 => (m.walk path budget target next rest).map (Route.prepend hop) := by
  rw [walk, move]
  cases current.element? segment with
  | none => cases h : flattened? current (segment :: next :: rest) <;> simp only [flattenedOr, h]
  | some element =>
      dsimp only
      cases element.association with
      | none =>
          cases h : flattened? current (segment :: next :: rest) <;> simp only [flattenedOr, h]
      | some association =>
          dsimp only
          by_cases hkey : (rest.isEmpty && association.keys.contains next) = true
          · rw [if_pos hkey, if_pos hkey]
          · rw [if_neg hkey, if_neg hkey]
            cases flattened? current (segment :: next :: rest) with
            | some route => rfl
            | none =>
                cases m.hop segment association with
                | error deadEnd => rfl
                | ok reached => rfl

/-! ## Moves -/

/-- The association at the segment leads from the entity over the hop to its target, and behind it
there is more to follow than a key that the entity holds itself. -/
structure StepsOver (m : Model) (current : Entity) (segment next : String) (rest : List String)
    (hop : Hop) (target : Entity) : Prop where
  reaches : ∃ element association, current.element? segment = some element ∧
    element.association = some association ∧ m.hop segment association = .ok (hop, target)
  more : ¬ HoldsKey current segment next rest

theorem StepsOver.unique {hop' : Hop} {target' : Entity}
    (h : m.StepsOver current segment next rest hop target)
    (h' : m.StepsOver current segment next rest hop' target') : hop = hop' ∧ target = target' := by
  obtain ⟨element, association, helement, hassociation, hhop⟩ := h.reaches
  obtain ⟨element', association', helement', hassociation', hhop'⟩ := h'.reaches
  cases helement.symm.trans helement'
  cases hassociation.symm.trans hassociation'
  cases hhop.symm.trans hhop'
  exact ⟨rfl, rfl⟩

/-- A key that the entity holds is taken from there; a flattened column is next; only then an
association is followed. -/
inductive Moves (m : Model) (current : Entity) (segment next : String) (rest : List String) :
    Move → Prop
  | key (hkey : HoldsKey current segment next rest) :
      Moves m current segment next rest (.stop (.ok (keyStep current segment next)))
  | flattened {route : Route} (hmore : ¬ HoldsKey current segment next rest)
      (hflattened : flattened? current (segment :: next :: rest) = some route) :
      Moves m current segment next rest (.stop (.ok route))
  | crosses {hop : Hop} {target : Entity}
      (hflattened : flattened? current (segment :: next :: rest) = none)
      (hstep : m.StepsOver current segment next rest hop target) :
      Moves m current segment next rest (.go hop target)
  | nowhere {deadEnd : DeadEnd} (hmore : ¬ HoldsKey current segment next rest)
      (hflattened : flattened? current (segment :: next :: rest) = none)
      (hstep : ∀ hop target, ¬ m.StepsOver current segment next rest hop target)
      (hdeadEnd : deadEnd ≠ .tooManyHops) :
      Moves m current segment next rest (.stop (.error deadEnd))

/-- A hop fails for want of columns, of a target or of a table. -/
theorem deadEnd_of_hop {association : Association} {deadEnd : DeadEnd}
    (h : m.hop segment association = .error deadEnd) :
    deadEnd = .noJoin segment ∨ deadEnd = .missingTarget association.target segment ∨
      ∃ fault, deadEnd = .brokenProjection fault := by
  unfold Model.hop at h
  split at h
  · cases h
    exact .inl rfl
  · split at h
    · cases h
      exact .inr (.inl rfl)
    · split at h
      · cases h
        exact .inr (.inr ⟨_, rfl⟩)
      · cases h

/-- Where no association is, only a flattened column can be taken. -/
theorem moves_flattenedOr {deadEnd : DeadEnd} (hdeadEnd : deadEnd ≠ .tooManyHops)
    (hnone : ∀ element association, current.element? segment = some element →
      element.association ≠ some association) :
    m.Moves current segment next rest
      (.stop (flattenedOr current (segment :: next :: rest) deadEnd)) := by
  have hmore : ¬ HoldsKey current segment next rest := by
    rintro ⟨-, element, association, helement, hassociation, -⟩
    exact hnone element association helement hassociation
  unfold flattenedOr
  cases hflattened : flattened? current (segment :: next :: rest) with
  | some route => exact .flattened hmore hflattened
  | none =>
      refine .nowhere hmore hflattened (fun hop target hstep => ?_) hdeadEnd
      obtain ⟨element, association, helement, hassociation, -⟩ := hstep.reaches
      exact hnone element association helement hassociation

theorem moves (m : Model) (path : String) (current : Entity) (segment next : String)
    (rest : List String) :
    m.Moves current segment next rest (m.move path current segment next rest) := by
  unfold move
  cases helement : current.element? segment with
  | none =>
      refine moves_flattenedOr (fun h => nomatch h) fun element association hfound => ?_
      cases helement.symm.trans hfound
  | some element =>
      dsimp only
      cases hassociation : element.association with
      | none =>
          refine moves_flattenedOr (fun h => nomatch h) fun element' association hfound => ?_
          cases helement.symm.trans hfound
          rw [hassociation]
          exact fun h => nomatch h
      | some association =>
          -- The walk tests by Booleans what `HoldsKey` says of the element.
          have hholds : HoldsKey current segment next rest ↔
              rest.isEmpty = true ∧ association.keys.contains next = true := by
            simp [HoldsKey, helement, hassociation, List.isEmpty_iff]
          dsimp only
          by_cases hkey : (rest.isEmpty && association.keys.contains next) = true
          · rw [if_pos hkey]
            exact .key (hholds.mpr (Bool.and_eq_true_iff.mp hkey))
          · rw [if_neg hkey]
            have hmore : ¬ HoldsKey current segment next rest := fun h =>
              hkey (Bool.and_eq_true_iff.mpr (hholds.mp h))
            cases hflattened : flattened? current (segment :: next :: rest) with
            | some route => exact .flattened hmore hflattened
            | none =>
                dsimp only
                cases hhop : m.hop segment association with
                | ok reached =>
                    exact .crosses hflattened
                      ⟨⟨element, association, helement, hassociation, hhop⟩, hmore⟩
                | error deadEnd =>
                    refine .nowhere hmore hflattened (fun hop target hstep => ?_) ?_
                    · obtain ⟨element', association', helement', hassociation', hhop'⟩ :=
                        hstep.reaches
                      cases helement.symm.trans helement'
                      cases hassociation.symm.trans hassociation'
                      cases hhop.symm.trans hhop'
                    · rcases deadEnd_of_hop hhop with rfl | rfl | ⟨fault, rfl⟩
                      all_goals exact fun h => nomatch h

/-- A walk that is not on its last segment has the outcome of a move that stops it, or takes a hop
and goes on behind it, if it has one left. -/
theorem walk_cases (m : Model) (path : String) (budget : Nat) (current : Entity)
    (segment next : String) (rest : List String) :
    (∃ outcome, m.Moves current segment next rest (.stop outcome) ∧
        m.walk path budget current segment (next :: rest) = outcome) ∨
      ∃ hop target, m.Moves current segment next rest (.go hop target) ∧
        m.walk path budget current segment (next :: rest) =
          match budget with
          | 0 => .error .tooManyHops
          | budget + 1 => (m.walk path budget target next rest).map (Route.prepend hop) := by
  have hmoves := m.moves path current segment next rest
  rw [walk_cons]
  cases hmove : m.move path current segment next rest with
  | stop outcome => exact .inl ⟨outcome, hmove ▸ hmoves, rfl⟩
  | go hop target => exact .inr ⟨hop, target, hmove ▸ hmoves, rfl⟩

theorem StepsOver.move_eq (hstep : m.StepsOver current segment next rest hop target)
    (hflattened : flattened? current (segment :: next :: rest) = none) :
    m.move path current segment next rest = .go hop target := by
  have hmoves := m.moves path current segment next rest
  cases hmove : m.move path current segment next rest with
  | stop outcome =>
      rw [hmove] at hmoves
      cases hmoves with
      | key hkey => exact absurd hkey hstep.more
      | flattened _ hfound => cases hflattened.symm.trans hfound
      | nowhere _ _ hnowhere => exact absurd hstep (hnowhere hop target)
  | go hop' target' =>
      rw [hmove] at hmoves
      cases hmoves with
      | crosses _ hstep' =>
          obtain ⟨rfl, rfl⟩ := hstep.unique hstep'
          rfl

/-- What stops at the first segment takes no hop. -/
theorem Moves.hops_eq_nil (h : m.Moves current segment next rest (.stop (.ok route))) :
    route.hops = [] := by
  cases h with
  | key hkey =>
      obtain ⟨-, element, association, helement, hassociation, hmem⟩ := hkey
      exact (endsAt_keyStep helement hassociation hmem).endsOn.1
  | flattened hmore hflattened => exact (endsAt_of_flattened hflattened).endsOn.1

/-! ## Walks of paths -/

theorem route_eq_walk (h : Text.segments '.' path = segment :: rest) :
    m.route current path = m.walk path Naming.maxHops current segment rest := by
  rw [Model.route, h]

/-- A path has a first segment, and its route is the walk from there. -/
theorem exists_route_eq_walk (m : Model) (start : Entity) (path : String) :
    ∃ segment rest, Text.segments '.' path = segment :: rest ∧
      m.route start path = m.walk path Naming.maxHops start segment rest := by
  obtain ⟨segment, rest, hsegments⟩ := List.exists_cons_of_ne_nil (Text.segments_ne_nil '.' path)
  exact ⟨segment, rest, hsegments, route_eq_walk hsegments⟩

end Model

end ChangeTracking.Schema
