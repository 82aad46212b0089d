import ChangeTracking.Proofs.Schema.Fallbacks
import ChangeTracking.Proofs.Schema.Registered

/-!
# The shape of routes

A walk by places, which looks for segments by their number, always finds them.  A route takes
fewer hops than the path has segments, and eight at most; its hops lead to entities that own
tables, and it ends on columns of the last of them.  Behind the first hop of a longer path the
route is that of the remaining path, apart from the limit of hops, which no acceptable path
reaches.
-/

namespace ChangeTracking.Schema

/-- The route with hops in front. -/
def Route.behind (hops : List Hop) (route : Route) : Route :=
  { route with hops := hops ++ route.hops }

theorem Route.behind_nil (route : Route) : route.behind [] = route := rfl

theorem Route.behind_prepend (hops : List Hop) (hop : Hop) (route : Route) :
    (route.prepend hop).behind hops = route.behind (hops ++ [hop]) := by
  simp [Route.behind, Route.prepend]

/-- The dead end as it is reported for another path. -/
def DeadEnd.inPath (path : String) : DeadEnd → DeadEnd
  | .notARelationship segment _ => .notARelationship segment path
  | deadEnd => deadEnd

namespace Model

variable {m : Model} {path segment next : String} {budget place : Nat}
  {current target start : Entity} {rest segments : List String} {route : Route} {hop : Hop}

/-! ## Walks by places -/

/-- The walk from the segment at a place, with the hops taken before; nothing if it looks for a
segment at a place where there is none. -/
def walkAt (m : Model) (path : String) (segments : List String) (place : Nat) (hops : List Hop)
    (current : Entity) : Option (Except DeadEnd Route) :=
  if _ : place < segments.length then
    if place + 1 = segments.length then
      some ((lastStep current segments[place]).map (Route.behind hops))
    else
      match segments[place + 1]? with
      | none => none
      | some next =>
          match m.move path current segments[place] next (segments.drop (place + 2)) with
          | .stop outcome => some (outcome.map (Route.behind hops))
          | .go hop target =>
              if Naming.maxHops < (hops ++ [hop]).length then some (.error .tooManyHops)
              else m.walkAt path segments (place + 1) (hops ++ [hop]) target
  else none
termination_by segments.length - place

theorem walkAt_eq_walk {hops : List Hop} (hdrop : segments.drop place = segment :: rest)
    (hhops : hops.length ≤ Naming.maxHops) :
    m.walkAt path segments place hops current =
      some ((m.walk path (Naming.maxHops - hops.length) current segment rest).map
        (Route.behind hops)) := by
  -- On the segments left: they stand from the place on, so it is the last one if there is no other.
  induction rest generalizing place hops current segment with
  | nil =>
      have hlength := congrArg List.length hdrop
      rw [List.length_drop, List.length_singleton] at hlength
      have hplace : place < segments.length := by omega
      have hsegment : segments[place] = segment := by
        rw [List.drop_eq_getElem_cons hplace] at hdrop
        exact (List.cons.inj hdrop).1
      rw [walkAt, dif_pos hplace, if_pos (by omega), hsegment, walk]
  | cons next rest ih =>
      have hlength := congrArg List.length hdrop
      rw [List.length_drop, List.length_cons, List.length_cons] at hlength
      have hplace : place < segments.length := by omega
      rw [List.drop_eq_getElem_cons hplace] at hdrop
      obtain ⟨hsegment, hbehind⟩ := List.cons.inj hdrop
      have hnext : segments[place + 1]? = some next := by
        rw [← List.head?_drop, hbehind, List.head?_cons]
      have hrest : segments.drop (place + 2) = rest := by
        rw [← List.tail_drop, hbehind, List.tail_cons]
      rw [walkAt, dif_pos hplace, if_neg (by omega), hnext, hsegment, hrest, walk_cons]
      dsimp only
      cases m.move path current segment next rest with
      | stop outcome => rfl
      | go hop target =>
          dsimp only
          rw [List.length_append, List.length_singleton]
          -- The one walk counts the hops that it took, the other one those that it has left.
          cases hbudget : Naming.maxHops - hops.length with
          | zero => rw [if_pos (by omega)]; rfl
          | succ budget =>
              have hless : (hops ++ [hop]).length ≤ Naming.maxHops := by
                rw [List.length_append, List.length_singleton]
                omega
              have hleft : Naming.maxHops - (hops ++ [hop]).length = budget := by
                rw [List.length_append, List.length_singleton]
                omega
              rw [if_neg (by omega), ih hbehind hless, hleft]
              dsimp only
              cases m.walk path budget target next rest with
              | error deadEnd => rfl
              | ok tail => exact congrArg _ (congrArg _ (Route.behind_prepend hops hop tail).symm)

/-- The walk by places finds every segment that it looks for, and yields the route. -/
theorem walkAt_eq_route (m : Model) (start : Entity) (path : String) :
    m.walkAt path (Text.segments '.' path) 0 [] start = some (m.route start path) := by
  obtain ⟨segment, rest, hsegments, hroute⟩ := exists_route_eq_walk m start path
  have hdrop : (segment :: rest).drop 0 = segment :: rest := rfl
  rw [hsegments, hroute, walkAt_eq_walk hdrop (Nat.zero_le _)]
  dsimp only [List.length_nil, Nat.sub_zero]
  cases m.walk path Naming.maxHops start segment rest with
  | error deadEnd => rfl
  | ok route => rw [Except.map, Route.behind_nil]

/-! ## Hops of a route -/

/-- Every hop of a walk uses up a segment that is not the last one. -/
theorem length_hops_le_of_walk (h : m.walk path budget current segment rest = .ok route) :
    route.hops.length ≤ rest.length := by
  induction rest generalizing budget current segment route with
  | nil =>
      rw [walk] at h
      rw [(endsAt_of_lastStep h).endsOn.1]
      exact Nat.zero_le _
  | cons next rest ih =>
      obtain ⟨outcome, hstop, hwalk⟩ | ⟨hop, target, -, hwalk⟩ :=
        m.walk_cases path budget current segment next rest
      · cases hwalk.symm.trans h
        rw [hstop.hops_eq_nil]
        exact Nat.zero_le _
      · rw [hwalk] at h
        cases budget with
        | zero => cases h
        | succ budget =>
            obtain ⟨tail, htail, rfl⟩ := map_eq_ok.mp h
            exact Nat.succ_le_succ (ih htail)

/-- A hop leads to an entity of the model that owns a table. -/
theorem registered_of_hop {association : Association}
    (h : m.hop segment association = .ok (hop, target)) :
    hop.entity = target.name ∧ m.get? target.name = some target ∧ target.projectionOf = none := by
  unfold Model.hop at h
  split at h
  · cases h
  · split at h
    · cases h
    · rename_i aimed haimed
      split at h
      · cases h
      · rename_i howner
        cases h
        exact ⟨rfl, get?_databaseEntity haimed howner⟩

theorem Leads.registered (h : m.Leads current route) :
    ∀ hop ∈ route.hops, ∃ e, m.get? hop.entity = some e ∧ e.projectionOf = none := by
  induction h using Leads.ends_or_hop with
  | ends _ hends =>
      rw [hends.endsOn.1]
      exact List.forall_mem_nil _
  | hop _ _ hhop _ ih =>
      obtain ⟨hname, hget, howner⟩ := registered_of_hop hhop
      exact List.forall_mem_cons.mpr ⟨⟨_, hname ▸ hget, howner⟩, ih⟩

/-- A route ends on the entity of its last hop, or where it starts if it takes none. -/
theorem Leads.holder_eq_last (h : m.Leads current route) :
    route.holder = (route.hops.getLast?.map (·.entity)).getD current.name := by
  induction h using Leads.ends_or_hop with
  | ends _ hends =>
      rw [hends.endsOn.1, hends.endsOn.2]
      rfl
  | @hop _ target _ _ _ hop tail _ _ hhop _ ih =>
      have hname := (registered_of_hop hhop).1
      have hholder : (tail.prepend hop).holder = tail.holder := rfl
      rw [hholder, ih, Route.prepend, List.getLast?_cons, hname.symm]
      cases tail.hops.getLast? <;> rfl

/-! ## The limit of hops -/

theorem lastStep_ne_tooManyHops (current : Entity) (segment : String) :
    lastStep current segment ≠ .error .tooManyHops := by
  unfold lastStep
  split
  · exact fun h => nomatch h
  · split
    · split
      · exact fun h => nomatch h
      · exact fun h => nomatch h
    · split
      · exact fun h => nomatch h
      · exact fun h => nomatch h

theorem length_lt_of_tooManyHops
    (h : m.walk path budget current segment rest = .error .tooManyHops) : budget < rest.length := by
  induction rest generalizing budget current segment with
  | nil =>
      rw [walk] at h
      exact absurd h (lastStep_ne_tooManyHops current segment)
  | cons next rest ih =>
      obtain ⟨outcome, hstop, hwalk⟩ | ⟨hop, target, -, hwalk⟩ :=
        m.walk_cases path budget current segment next rest
      · cases hwalk.symm.trans h
        cases hstop with
        | nowhere _ _ _ hdeadEnd => exact absurd rfl hdeadEnd
      · rw [hwalk] at h
        cases budget with
        | zero => exact Nat.succ_pos _
        | succ budget => exact Nat.succ_lt_succ (ih (map_eq_error.mp h))

/-! ## Behind the first hop -/

theorem lastStep_inPath (path : String) (current : Entity) (segment : String) :
    (lastStep current segment).mapError (DeadEnd.inPath path) = lastStep current segment := by
  unfold lastStep
  split
  · rfl
  · split
    · split
      · rfl
      · rfl
    · split
      · rfl
      · rfl

theorem flattenedOr_inPath (path : String) (current : Entity) (segments : List String)
    (deadEnd : DeadEnd) :
    (flattenedOr current segments deadEnd).mapError (DeadEnd.inPath path) =
      flattenedOr current segments (deadEnd.inPath path) := by
  unfold flattenedOr
  cases flattened? current segments <;> rfl

/-- The move for the one path is the move for the other, with dead ends reported for the one. -/
theorem move_inPath (m : Model) (path other : String) (current : Entity) (segment next : String)
    (rest : List String) :
    m.move path current segment next rest =
      match m.move other current segment next rest with
      | .stop outcome => .stop (outcome.mapError (DeadEnd.inPath path))
      | .go hop target => .go hop target := by
  unfold move
  cases current.element? segment with
  | none =>
      dsimp only
      rw [flattenedOr_inPath]
      rfl
  | some element =>
      dsimp only
      cases element.association with
      | none =>
          dsimp only
          rw [flattenedOr_inPath]
          rfl
      | some association =>
          dsimp only
          by_cases hkey : (rest.isEmpty && association.keys.contains next) = true
          · rw [if_pos hkey]
            rfl
          · rw [if_neg hkey]
            cases flattened? current (segment :: next :: rest) with
            | some route => rfl
            | none =>
                dsimp only
                cases hhop : m.hop segment association with
                | ok reached => rfl
                | error deadEnd =>
                    rcases deadEnd_of_hop hhop with rfl | rfl | ⟨fault, rfl⟩
                    all_goals rfl

/-- With one hop less to spend a walk ends as before, with dead ends reported for its own path, or
it exceeds the limit. -/
theorem walk_of_succ (m : Model) (path other : String) (budget : Nat) (current : Entity)
    (segment : String) (rest : List String) :
    m.walk path budget current segment rest =
        (m.walk other (budget + 1) current segment rest).mapError (DeadEnd.inPath path) ∨
      m.walk path budget current segment rest = .error .tooManyHops := by
  -- On the segments left: both walks move alike, and only the one with less to spend can run out.
  induction rest generalizing budget current segment with
  | nil =>
      rw [walk, walk, lastStep_inPath]
      exact .inl rfl
  | cons next rest ih =>
      rw [walk_cons, walk_cons, move_inPath m path other]
      cases m.move other current segment next rest with
      | stop outcome => exact .inl rfl
      | go hop target =>
          cases budget with
          | zero => exact .inr rfl
          | succ budget =>
              dsimp only
              rcases ih budget target next with hsame | hmany
              · rw [hsame]
                cases m.walk other (budget + 1) target next rest <;> exact .inl rfl
              · rw [hmany]
                exact .inr rfl

theorem segments_dotted {segment : String} (h : '.' ∉ segment.toList) (tail : String) :
    Text.segments '.' (segment ++ "." ++ tail) = segment :: Text.segments '.' tail := by
  have hchars : (segment ++ "." ++ tail).toList = segment.toList ++ '.' :: tail.toList := by
    simp
  rw [Text.segments, hchars, List.splitOn_append_cons_self_of_not_mem h, List.map_cons,
    String.ofList_toList, Text.segments]

/-- The first segment of the longer path leads over an association to its target, and no column
flattens the whole path. -/
def GoesOver (m : Model) (start : Entity) (segment tail : String) (hop : Hop) (target : Entity) :
    Prop :=
  ∃ next rest, Text.segments '.' tail = next :: rest ∧
    m.StepsOver start segment next rest hop target ∧
    flattened? start (segment :: next :: rest) = none

/-- The path leads over the hop and then along its tail: the route is that of the tail behind the
hop, and a dead end of the tail is one of the path, unless the limit of hops is exceeded before.
A route of the tail may have one hop less than the limit. -/
structure LeadsBehind (m : Model) (start : Entity) (path : String) (hop : Hop) (target : Entity)
    (tail : String) : Prop where
  same : m.route start path =
      ((m.route target tail).map (Route.prepend hop)).mapError (DeadEnd.inPath path) ∨
    m.route start path = .error .tooManyHops ∧
      Naming.maxHops + 1 < (Text.segments '.' path).length
  limit : ∀ route, m.route target tail = .ok route →
    (m.route start path = .ok (route.prepend hop) ↔ route.hops.length < Naming.maxHops)

theorem leadsBehind_of_goesOver {tail : String} (hsegment : '.' ∉ segment.toList)
    (h : m.GoesOver start segment tail hop target) :
    m.LeadsBehind start (segment ++ "." ++ tail) hop target tail := by
  obtain ⟨next, rest, htail, hstep, hflattened⟩ := h
  have hsegments := segments_dotted hsegment tail
  rw [htail] at hsegments
  have hroute : m.route start (segment ++ "." ++ tail) =
      (m.walk (segment ++ "." ++ tail) (Naming.maxHops - 1) target next rest).map
        (Route.prepend hop) := by
    rw [route_eq_walk hsegments, walk_cons, hstep.move_eq hflattened]
    rfl
  refine ⟨?_, fun route htailRoute => ?_⟩
  · rw [hroute, route_eq_walk htail, hsegments]
    -- The tail alone has one hop more to spend than it has behind the first hop of the path.
    rcases m.walk_of_succ (segment ++ "." ++ tail) tail (Naming.maxHops - 1) target next rest with
      hsame | hmany
    · have hmax : Naming.maxHops - 1 + 1 = Naming.maxHops := rfl
      rw [hsame, hmax]
      cases m.walk tail Naming.maxHops target next rest <;> exact .inl rfl
    · have hlength := length_lt_of_tooManyHops hmany
      refine .inr ⟨by rw [hmany]; rfl, ?_⟩
      rw [List.length_cons, List.length_cons]
      omega
  · constructor
    · intro hwhole
      rw [route_eq_walk hsegments] at hwhole
      exact (walk_eq_ok_iff.mp hwhole).1
    · intro hlength
      rw [route_eq_walk htail] at htailRoute
      rw [hroute,
        walk_eq_ok_iff.mpr ⟨Nat.le_sub_one_of_lt hlength, (walk_eq_ok_iff.mp htailRoute).2⟩]
      rfl

/-! ## Shapes -/

theorem length_segments_of_checkPath {parameter : String}
    (h : Naming.checkPath parameter path = .ok ()) :
    (Text.segments '.' path).length ≤ Naming.maxHops + 1 := by
  rw [Naming.checkPath, bind_eq_ok] at h
  obtain ⟨_, -, h⟩ := h
  dsimp only at h
  split at h
  · cases h
  · omega

/-- The route fits the segments of its path and the entity where it starts. -/
structure IsShaped (m : Model) (start : Entity) (segments : List String) (route : Route) :
    Prop where
  within_limit : route.hops.length ≤ Naming.maxHops
  fewer_hops : route.hops.length < segments.length
  joins : ∀ hop ∈ route.hops, hop.joins ≠ []
  tables : ∀ hop ∈ route.hops, ∃ e, m.get? hop.entity = some e ∧ e.projectionOf = none
  columns : route.columns ≠ []
  holder : route.holder = (route.hops.getLast?.map (·.entity)).getD start.name

theorem isShaped_of_route (h : m.route start path = .ok route) :
    m.IsShaped start (Text.segments '.' path) route := by
  have hleads := leads_of_route h
  obtain ⟨segment, rest, hsegments, hroute⟩ := exists_route_eq_walk m start path
  rw [hroute] at h
  rw [hsegments]
  exact {
    within_limit := (walk_eq_ok_iff.mp h).1
    fewer_hops := Nat.lt_succ_of_le (length_hops_le_of_walk h)
    joins := hleads.joins_ne_nil
    tables := hleads.registered
    columns := hleads.columns_ne_nil
    holder := hleads.holder_eq_last }

/-- To find a route, segments are looked for only at places where there are some; what is found
fits the path.  A longer path whose first segment leads over an association has the route of its
tail behind that hop.  No path that is accepted exceeds the limit of hops. -/
theorem route_isShaped (m : Model) (start : Entity) (path : String) :
    m.walkAt path (Text.segments '.' path) 0 [] start = some (m.route start path) ∧
    (∀ route, m.route start path = .ok route → m.IsShaped start (Text.segments '.' path) route) ∧
    (∀ segment tail hop target, path = segment ++ "." ++ tail → '.' ∉ segment.toList →
      m.GoesOver start segment tail hop target → m.LeadsBehind start path hop target tail) ∧
    ∀ parameter, Naming.checkPath parameter path = .ok () →
      m.route start path ≠ .error .tooManyHops := by
  refine ⟨walkAt_eq_route m start path, fun route h => isShaped_of_route h, ?_, ?_⟩
  · rintro segment tail hop target rfl hsegment hover
    exact leadsBehind_of_goesOver hsegment hover
  · intro parameter hcheck hmany
    have hlength := length_segments_of_checkPath hcheck
    obtain ⟨segment, rest, hsegments, hroute⟩ := exists_route_eq_walk m start path
    rw [hroute] at hmany
    have hmore := length_lt_of_tooManyHops hmany
    rw [hsegments, List.length_cons] at hlength
    omega

end Model

/-! ### The country of a shipment -/

namespace Shipments

theorem goesOver_customer :
    model.GoesOver orders "customer" "country.name" toCustomer customers := by
  have hsegments : Text.segments '.' "country.name" = ["country", "name"] := by decide +kernel
  exact ⟨"country", ["name"], hsegments, stepsOver_customer (fun h => nomatch h), by decide +kernel⟩

/-- The path to the name of the country is accepted.  It leads over the customer and then along the
path to the country of the customer. -/
theorem shape_country :
    Naming.checkPath "@changelog" "customer.country.name" = .ok () ∧
      model.GoesOver orders "customer" "country.name" toCustomer customers ∧
      model.LeadsBehind orders "customer.country.name" toCustomer customers "country.name" ∧
      model.route orders "customer.country.name" ≠ .error .tooManyHops ∧
      ∃ route, model.route orders "customer.country.name" = .ok route ∧
        model.IsShaped orders (Text.segments '.' "customer.country.name") route ∧
        route.hops = [toCustomer, toCountry] := by
  obtain ⟨-, hshaped, hbehind, haccepted⟩ :=
    Model.route_isShaped model orders "customer.country.name"
  have hpath : "customer.country.name" = "customer" ++ "." ++ "country.name" := by decide +kernel
  have hsegment : '.' ∉ "customer".toList := by decide +kernel
  have hcheck : Naming.checkPath "@changelog" "customer.country.name" = .ok () := by decide +kernel
  have hroute : model.route orders "customer.country.name" =
      .ok (((Route.toElement countries { name := "name", isLocalized := true } ["name"]).prepend
        toCountry).prepend toCustomer) := by
    decide +kernel
  exact ⟨hcheck, goesOver_customer,
    hbehind "customer" "country.name" toCustomer customers hpath hsegment goesOver_customer,
    haccepted "@changelog" hcheck, _, hroute, hshaped _ hroute, rfl⟩

end Shipments

end ChangeTracking.Schema
