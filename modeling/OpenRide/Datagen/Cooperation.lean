import Mathlib.Data.List.Lex
import Mathlib.Data.Prod.Lex
import OpenRide.Datagen.Slug
import OpenRide.Lib.Sorted
import OpenRide.Lib.UnionFind

/-!
# Cooperation structures

A cooperation structure says which hauliers may share orders.  It is authored as edges between two
hauliers or as pools of several, and compiled into four representations: the `edges`, the `pools`,
the partners of each haulier (`adjacency`), and the connected `components`, which split the
hauliers between planners.

Edges and pools are derived from one another, whichever was authored: a pool for every edge, or an
edge for every two members of a pool.  `compileEntry` reads one authored structure and
`normalizeCooperation` a whole block of them, adding a structure without edges when there is none.
-/

namespace OpenRide.Datagen

open Lib

/-- Why compiling a cooperation block fails. -/
inductive CooperationError where
  | valueError (message : String)
  | keyError
deriving DecidableEq

/-- A pool as compiled: its id and its members, sorted. -/
structure PoolEntry where
  id : String
  members : List String
deriving DecidableEq

/-- The edges of a structure, each with the smaller id first. -/
abbrev EdgeSet := SortedSet (String ×ₗ String)

/-- Add the edge between two hauliers. -/
def EdgeSet.link (s : EdgeSet) (a b : String) : EdgeSet := s.insert (toLex (min a b, max a b))

/-- The edges of a set, sorted. -/
def EdgeSet.edges (s : EdgeSet) : List (String × String) := s.toList.map ofLex

section

variable (T : PyText) (known : SortedSet String)

/-! ## Edges -/

/-- `_cooperation_member`. -/
def cooperationMember (whr : String) (value : Raw) : Except CooperationError String :=
  let member := haulierSlug T value ""
  if member ∈ known then .ok member else
    let shown := T.repr (.str (T.strOf value))
    let slugged := T.repr (.str member)
    let ids := T.repr (.list (known.toList.map .str))
    .error (.valueError
      s!"{whr}: unknown haulier id {shown} (normalized {slugged}); known haulier ids: {ids}.")

/-- The edges of a list of authored pairs, from the `idx`-th on. -/
def edgesFrom (whr : String) : ℕ → List Raw → EdgeSet → Except CooperationError EdgeSet
  | _, [], acc => .ok acc
  | idx, entry :: rest, acc =>
    match entry.pair? with
    | none =>
      let got := T.repr entry
      .error (.valueError
        s!"{whr}: edge #{idx} must be a 2-element [haulier_id, haulier_id] pair (got {got}).")
    | some (x, y) =>
      match cooperationMember T known s!"{whr} edge #{idx}" x with
      | .error e => .error e
      | .ok a =>
        match cooperationMember T known s!"{whr} edge #{idx}" y with
        | .error e => .error e
        -- a self-loop is a membership no-op
        | .ok b => edgesFrom whr (idx + 1) rest (if a = b then acc else acc.link a b)

/-- `_normalize_edges`. -/
def normalizeEdges (rawEdges : Raw) (whr : String) : Except CooperationError EdgeSet :=
  match rawEdges with
  | .null => .ok SortedSet.empty
  | .list entries => edgesFrom T known whr 0 entries SortedSet.empty
  | _ => .error (.valueError s!"{whr}: 'edges' must be a list of [haulier_id, haulier_id] pairs.")

/-! ## The graph of the edges -/

/-- `adj.setdefault(a, set()).add(b)`. -/
def addPartner (adj : Dict String (SortedSet String)) (a b : String) :
    Dict String (SortedSet String) :=
  adj.set a (((adj.get? a).getD SortedSet.empty).insert b)

/-- The partners of each haulier, before they are listed. -/
def partnerSets (edges : List (String × String)) : Dict String (SortedSet String) :=
  edges.foldl (fun adj e ↦ addPartner (addPartner adj e.1 e.2) e.2 e.1) Dict.empty

/-- `adjacency_of`. -/
def adjacencyOf (edges : List (String × String)) : Dict String (List String) :=
  Dict.ofList ((sortedBy Prod.fst (partnerSets edges).entries).map fun p ↦ (p.1, p.2.toList))

/-- `components_of`.  The walks of the union-find need at most one step more than there are
ids. -/
def componentsOf (edges : List (String × String)) (allIds : List String) :
    Option (List (List String)) :=
  let fuel := allIds.length + 1
  match UnionFind.unionAll fuel edges (UnionFind.singletons allIds) with
  | none => none
  | some parent =>
    match UnionFind.groupRoots fuel allIds parent Dict.empty with
    | none => none
    | some groups => some (sortedBy id (groups.values.map (sortedBy id)))

/-! ## Pools -/

/-- The prefix of the id of a derived pool. -/
def derivedPoolPrefix : String := "p:"

/-- `_derived_pool_id`. -/
def derivedPoolId (members : List String) : String :=
  derivedPoolPrefix ++ "+".intercalate (sortedBy id members)

/-- The pools of the edges, by id. -/
def edgePools (edges : List (String × String)) : Dict String (List String) :=
  edges.foldl (fun pools e ↦
    let members := (SortedSet.ofList [e.1, e.2]).toList
    if members.length < 2 then pools else pools.set (derivedPoolId members) members) Dict.empty

/-- `derive_pools_from_edges`. -/
def derivePoolsFromEdges (edges : List (String × String)) : List PoolEntry :=
  (sortedBy Prod.fst (edgePools edges).entries).map fun p ↦ ⟨p.1, p.2⟩

/-- The pairs of an earlier and a later element of a list. -/
def pairsOf : List String → List (String × String)
  | [] => []
  | a :: rest => rest.map (fun b ↦ (a, b)) ++ pairsOf rest

/-- `derive_edges_from_pools`. -/
def deriveEdgesFromPools (pools : List PoolEntry) : EdgeSet :=
  pools.foldl (fun edges pool ↦
    (pairsOf (SortedSet.ofList pool.members).toList).foldl (fun edges p ↦ edges.link p.1 p.2) edges)
    SortedSet.empty

/-- The members of one authored pool. -/
def membersFrom (whr : String) : List Raw → SortedSet String →
    Except CooperationError (SortedSet String)
  | [], acc => .ok acc
  | m :: rest, acc =>
    match cooperationMember T known whr m with
    | .error e => .error e
    | .ok member => membersFrom whr rest (acc.insert member)

/-- `entry.get("members")` as a list of authored members. -/
def rawMembers (whr : String) (value : Raw) : Except CooperationError (List Raw) :=
  match value with
  | .null => .ok []
  | .list ms => .ok ms
  | _ => .error (.valueError s!"{whr}: 'members' must be a list of haulier ids.")

/-- The id of an authored pool, before repeated ids are told apart. -/
def authoredPoolId (rawId : Raw) (members : List String) : String :=
  match rawId with
  | .null => derivedPoolId members
  | _ => poolIdSlug T rawId (derivedPoolId members)

/-- The pools of a list of authored ones, from the `idx`-th on, with the ids already taken. -/
def poolsFrom (whr : String) : ℕ → List Raw → List String → List PoolEntry →
    Except CooperationError (List PoolEntry)
  | _, [], _, out => .ok out
  | idx, .dict entry :: rest, seen, out =>
    match rawMembers s!"{whr} pool #{idx}" (Raw.field entry "members") with
    | .error e => .error e
    | .ok ms =>
      match membersFrom T known s!"{whr} pool #{idx}" ms SortedSet.empty with
      | .error e => .error e
      | .ok members =>
        -- fewer than two members share nothing, like a self-loop
        if members.toList.length < 2 then poolsFrom whr (idx + 1) rest seen out else
          let pid := freshId seen (authoredPoolId T (Raw.field entry "id") members.toList)
          poolsFrom whr (idx + 1) rest (seen ++ [pid]) (out ++ [⟨pid, members.toList⟩])
  | idx, entry :: _, _, _ =>
    let got := T.repr entry
    .error (.valueError
      s!"{whr} pool #{idx}: must be an object with 'members' (got {got}).")

/-- `_normalize_pools`. -/
def normalizePools (rawPools : Raw) (whr : String) : Except CooperationError (List PoolEntry) :=
  match rawPools with
  | .null => .ok []
  | .list entries =>
    match poolsFrom T known whr 0 entries [] [] with
    | .error e => .error e
    | .ok out => .ok (sortedBy PoolEntry.id out)
  | _ => .error (.valueError s!"{whr}: 'pools' must be a list of \x7bid, members\x7d objects.")

/-! ## Structures -/

/-- A compiled structure. -/
structure CoopStructure where
  id : String
  edges : List (String × String)
  adjacency : Dict String (List String)
  components : List (List String)
  pools : List PoolEntry
deriving DecidableEq

/-- What one authored structure says: its edges, its pools and the id it asks for. -/
structure AuthoredStructure where
  edges : List (String × String)
  pools : List PoolEntry
  sid : String
deriving DecidableEq

/-- A structure authored by edges. -/
def compileEdges (rawEdges : Raw) (whr sid : String) : Except CooperationError AuthoredStructure :=
  match normalizeEdges T known rawEdges whr with
  | .error e => .error e
  | .ok s => .ok ⟨s.edges, derivePoolsFromEdges s.edges, sid⟩

/-- A structure authored by pools.  Edges may be authored with them if they say the same. -/
def compilePools (rawPools rawEdges : Raw) (whr sid : String) :
    Except CooperationError AuthoredStructure :=
  match normalizePools T known rawPools whr with
  | .error e => .error e
  | .ok pools =>
    let edges := (deriveEdgesFromPools pools).edges
    match rawEdges with
    | .null => .ok ⟨edges, pools, sid⟩
    | _ =>
      match normalizeEdges T known rawEdges whr with
      | .error e => .error e
      | .ok authored =>
        if edges = authored.edges then .ok ⟨edges, pools, sid⟩ else
          .error (.valueError s!"{whr}: 'pools' and 'edges' disagree; author one or the other.")

/-- The `idx`-th authored structure. -/
def compileEntry (idx : ℕ) (entry : Raw) : Except CooperationError AuthoredStructure :=
  let whr := s!"cooperation structure #{idx}"
  match entry with
  | .dict fields =>
    let sid := structureIdSlug T (Raw.field fields "id") s!"structure-{idx}"
    match Raw.field fields "pools" with
    | .null => compileEdges T known (Raw.field fields "edges") whr sid
    | rawPools => compilePools T known rawPools (Raw.field fields "edges") whr sid
  | .list pairs => compileEdges T known (.list pairs) whr s!"structure-{idx}"
  | _ => .error (.valueError s!"{whr}: must be an object with 'edges' or a list of edge pairs.")

/-- The structures of a list of authored ones, from the `idx`-th on, with the ids already
taken. -/
def structuresFrom : ℕ → List Raw → List String → List CoopStructure →
    Except CooperationError (List CoopStructure)
  | _, [], _, out => .ok out
  | idx, entry :: rest, seen, out =>
    match compileEntry T known idx entry with
    | .error e => .error e
    | .ok authored =>
      match componentsOf authored.edges known.toList with
      | none => .error .keyError
      | some components =>
        let sid := freshId seen authored.sid
        structuresFrom (idx + 1) rest (seen ++ [sid]) (out ++
          [{ id := sid
             edges := authored.edges
             adjacency := adjacencyOf authored.edges
             components := components
             pools := authored.pools }])

/-- The id of the structure without edges. -/
def defaultStructureId : String := "no-coop"

/-- The structures with one without edges among them. -/
def withBaseline (declared : List CoopStructure) : Except CooperationError (List CoopStructure) :=
  if declared.any fun s ↦ s.edges.isEmpty then .ok declared else
    match componentsOf [] known.toList with
    | none => .error .keyError
    | some components =>
      .ok ({ id := if defaultStructureId ∈ declared.map CoopStructure.id then "baseline"
                   else defaultStructureId
             edges := []
             adjacency := Dict.empty
             components := components
             pools := [] } :: declared)

/-- The id of the active structure, resolved against the declared ones. -/
def activeId (activeRaw : Raw) (declared structures : List CoopStructure) :
    Except CooperationError String :=
  match activeRaw with
  | .null => .ok (((declared ++ structures).head?.map CoopStructure.id).getD "")
  | .bool _ => .error (.valueError "cooperation: 'active' must be a structure id or index.")
  | .int n =>
    match (if 0 ≤ n then declared[n.toNat]? else none) with
    | some s => .ok s.id
    | none => .error (.valueError
        (s!"cooperation: 'active' index {n} out of range (have {declared.length} declared " ++
          "structure(s))."))
  | v =>
    let wanted := structureIdSlug T v ""
    if wanted ∈ structures.map CoopStructure.id then .ok wanted else
      let shown := T.repr (.str (T.strOf v))
      let ids := T.repr (.list
        ((SortedSet.ofList (structures.map CoopStructure.id)).toList.map .str))
      .error (.valueError s!"cooperation: 'active' structure {shown} not found; declared: {ids}.")

/-- The authored structures of a cooperation block, and its `active`. -/
def authoredStructures (raw : Raw) : Except CooperationError (List Raw × Raw) :=
  match raw with
  | .null => .ok ([], .null)
  | .dict [] => .ok ([], .null)
  | .dict fields =>
    match Raw.field fields "structures" with
    | .null => .ok ([], Raw.field fields "active")
    | .list entries => .ok (entries, Raw.field fields "active")
    | _ => .error (.valueError "cooperation: 'structures' must be a list.")
  | .list [] => .ok ([], .null)
  -- a list that starts with a pair of strings is one structure, authored by its edges
  | .list (first :: rest) =>
    .ok (if first.isStringPair then [.list (first :: rest)] else first :: rest, .null)
  | _ => .error (.valueError "cooperation: must be an object or a list.")

end

/-- A compiled cooperation block. -/
structure Cooperation where
  active : String
  structures : List CoopStructure

/-- `normalize_cooperation`. -/
def normalizeCooperation (T : PyText) (raw : Raw) (haulierIds : List String) :
    Except CooperationError Cooperation :=
  if haulierIds.isEmpty then
    .error (.valueError "cooperation: cannot normalize without haulier ids.")
  else
    let known := SortedSet.ofList haulierIds
    match authoredStructures raw with
    | .error e => .error e
    | .ok (entries, activeRaw) =>
      match structuresFrom T known 0 entries [] [] with
      | .error e => .error e
      | .ok declared =>
        match withBaseline known declared with
        | .error e => .error e
        | .ok structures =>
          match activeId T activeRaw declared structures with
          | .error e => .error e
          | .ok active => .ok ⟨active, structures⟩

end OpenRide.Datagen
