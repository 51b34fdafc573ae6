/-
This file proves what flattening makes of a table.

Flattening carries the path along as one text. It is a pass over the stops of the walk, in which
each path becomes a text by joining its names one after the other; so the first array ends it, and
where two scalars come under one key, the later one counts.

The text of a path is its names joined by points, as long as something has been named: an empty text
stands for the outermost table, and an unnamed table inside it cannot be told from that. So the
paths that begin with an empty name, and only they, lose it.
-/

import ConnectorSettings.Proofs.Merging
import ConnectorSettings.Proofs.Passes
import ConnectorSettings.Source
import ConnectorSettings.Toml.Walk

namespace ConnectorSettings

namespace Toml

/-! ### One pass over the stops -/

/-- What flattening makes of one stop, behind the given path. -/
def leafAt (start : String) (stop : List String × Value) : Except ArrayAt (String × String) :=
  match stop.2.scalarText? with
  | some text => .ok (stop.1.foldl joinPath start, text)
  | none => .error ⟨stop.1.foldl joinPath start⟩

mutual

theorem leaves_eq_mapM (start : String) :
    ∀ value : Value, leaves start value = value.stops.mapM (leafAt start)
  | .text _ => rfl
  | .integer _ => rfl
  | .real _ => rfl
  | .boolean _ => rfl
  | .moment _ => rfl
  | .list _ => rfl
  | .table entries => tableLeaves_eq_mapM start entries

theorem tableLeaves_eq_mapM (start : String) : ∀ entries : List (String × Value),
    tableLeaves start entries = (tableStops entries).mapM (leafAt start)
  | [] => rfl
  | (name, value) :: rest => by
    -- The name in front of a path is the first to be joined to what is in front of it.
    have below : (value.stops.map fun stop => (name :: stop.1, stop.2)).mapM (leafAt start) =
        leaves (joinPath start name) value := by
      rw [leaves_eq_mapM (joinPath start name) value, List.mapM_map]
      rfl
    rw [tableLeaves, tableStops, List.mapM_append, below, tableLeaves_eq_mapM start rest]
    cases leaves (joinPath start name) value with
    | error _ => rfl
    | ok first => cases (tableStops rest).mapM (leafAt start) <;> rfl

end

/-! ### Paths -/

theorem joinedPath_cons_cons (name next : String) (path : List String) :
    joinedPath (name :: next :: path) = name ++ "." ++ joinedPath (next :: path) :=
  String.intercalate_cons_cons

/-- Behind a name, names are joined as they are. -/
theorem foldl_joinPath_of_named {start : String} (named : start ≠ "") (path : List String) :
    path.foldl joinPath start = joinedPath (start :: path) := by
  induction path generalizing start with
  | nil => exact String.intercalate_singleton.symm
  | cons name rest inductionHypothesis =>
    have here : joinPath start name = start ++ "." ++ name := by
      simp [joinPath, named]
    have further : start ++ "." ++ name ≠ "" := by
      simp [named]
    rw [List.foldl_cons, here, inductionHypothesis further, joinedPath_cons_cons]
    exact String.intercalate_cons_append

/-- In front of the first name there is nothing to join. -/
theorem foldl_joinPath (path : List String) : path.foldl joinPath "" = namedPath path := by
  induction path with
  | nil => rfl
  | cons name rest inductionHypothesis =>
    have here : joinPath "" name = name := rfl
    rw [List.foldl_cons, here, namedPath]
    by_cases unnamed : name = ""
    · rw [unnamed, inductionHypothesis, List.dropWhile_cons_of_pos (by simp)]
      rfl
    · rw [foldl_joinPath_of_named unnamed, List.dropWhile_cons_of_neg (by simp [unnamed])]

/-- The path goes through an unnamed table at the outermost level. -/
def BeginsUnnamed (path : List String) : Prop :=
  ∃ name rest, path = "" :: name :: rest

theorem length_namedPath_le (path : List String) :
    (namedPath path).length ≤ (joinedPath path).length := by
  induction path with
  | nil => exact Nat.le_refl _
  | cons name rest inductionHypothesis =>
    by_cases unnamed : name = ""
    · have dropped : namedPath (name :: rest) = namedPath rest := by
        rw [namedPath, List.dropWhile_cons_of_pos (by simp [unnamed])]
        rfl
      rw [dropped]
      refine Nat.le_trans inductionHypothesis ?_
      cases rest with
      | nil => exact Nat.zero_le _
      | cons next path =>
        rw [joinedPath_cons_cons, String.length_append]
        exact Nat.le_add_left _ _
    · refine Nat.le_of_eq ?_
      rw [namedPath, List.dropWhile_cons_of_neg (by simp [unnamed])]

/-- Just these paths get another text. -/
theorem namedPath_eq_joinedPath_iff (path : List String) :
    namedPath path = joinedPath path ↔ ¬ BeginsUnnamed path := by
  constructor
  · rintro same ⟨name, rest, rfl⟩
    have shorter := length_namedPath_le (name :: rest)
    have dropped : namedPath ("" :: name :: rest) = namedPath (name :: rest) := rfl
    rw [← dropped, same, joinedPath_cons_cons, String.length_append] at shorter
    have point : ("" ++ ".").length = 1 := by decide
    omega
  · intro named
    rcases path with _ | ⟨name, _ | ⟨next, rest⟩⟩
    · rfl
    · by_cases unnamed : name = ""
      · rw [unnamed]
        rfl
      · rw [namedPath, List.dropWhile_cons_of_neg (by simp [unnamed])]
    · have filled : name ≠ "" := fun unnamed => named ⟨next, rest, unnamed ▸ rfl⟩
      rw [namedPath, List.dropWhile_cons_of_neg (by simp [filled])]

/-! ### The walk -/

/-- A walk through a value stops at once, or is a walk through the table that the value is. -/
theorem mem_stops_iff {value found : Value} {path : List String} :
    (path, found) ∈ value.stops ↔
      (path = [] ∧ found = value ∧ ∀ inner, value ≠ .table inner) ∨
        ∃ inner, value = .table inner ∧ (path, found) ∈ tableStops inner := by
  cases value <;> simp [Value.stops]

theorem mem_tableStops_cons_iff {entries : List (String × Value)} {name : String}
    {path : List String} {found : Value} :
    (name :: path, found) ∈ tableStops entries ↔
      ∃ value, (name, value) ∈ entries ∧ (path, found) ∈ value.stops := by
  induction entries with
  | nil => simp [tableStops]
  | cons entry rest inductionHypothesis =>
    simp only [tableStops, List.mem_append, inductionHypothesis, List.mem_map, Prod.mk.injEq,
      List.cons.injEq, List.mem_cons, or_and_right, exists_or, Prod.exists]
    refine or_congr_left ⟨?_, ?_⟩
    · rintro ⟨_, _, member, ⟨rfl, rfl⟩, rfl⟩
      exact ⟨entry.2, rfl, member⟩
    · rintro ⟨_, rfl, member⟩
      exact ⟨path, found, member, ⟨rfl, rfl⟩, rfl⟩

theorem nil_not_mem_tableStops {entries : List (String × Value)} {found : Value} :
    ([], found) ∉ tableStops entries := by
  induction entries with
  | nil => exact List.not_mem_nil
  | cons entry rest inductionHypothesis => simp [tableStops, inductionHypothesis]

/-- The walk meets what can be reached and is no table, and nothing else. -/
theorem mem_tableStops_iff {table : Table} {path : List String} {found : Value} :
    (path, found) ∈ tableStops table ↔
      Reaches table path found ∧ ∀ inner, found ≠ .table inner := by
  constructor
  · intro member
    induction path generalizing table with
    | nil => exact absurd member nil_not_mem_tableStops
    | cons name path inductionHypothesis =>
      obtain ⟨value, entry, inside⟩ := mem_tableStops_cons_iff.mp member
      rcases mem_stops_iff.mp inside with ⟨rfl, rfl, noTable⟩ | ⟨inner, rfl, further⟩
      · exact ⟨.entry entry, noTable⟩
      · obtain ⟨reaches, noTable⟩ := inductionHypothesis further
        exact ⟨.inside entry reaches, noTable⟩
  · rintro ⟨reaches, noTable⟩
    induction reaches with
    | entry member =>
      exact mem_tableStops_cons_iff.mpr ⟨_, member, mem_stops_iff.mpr (.inl ⟨rfl, rfl, noTable⟩)⟩
    | inside member _ inductionHypothesis =>
      have further := inductionHypothesis noTable
      exact mem_tableStops_cons_iff.mpr
        ⟨_, member, mem_stops_iff.mpr (.inr ⟨_, rfl, further⟩)⟩

/-- Where the walk stops at no array, it stops at a scalar. -/
theorem scalar_of_mem_tableStops {table : Table} {stop : List String × Value}
    (member : stop ∈ tableStops table) (noList : ∀ items, stop.2 ≠ .list items) :
    ∃ text, stop.2.scalarText? = some text := by
  have noTable := (mem_tableStops_iff.mp member).2
  cases value : stop.2 with
  | list items => exact absurd value (noList items)
  | table inner => exact absurd value (noTable inner)
  | _ => exact ⟨_, rfl⟩

/-! ### What flattening makes of a table -/

/-- The scalars of a table with the keys of their paths, in the order of the walk. -/
def leavesBy (keyOf : List String → String) (table : Table) : List (String × String) :=
  (tableStops table).filterMap fun stop => stop.2.scalarText?.map fun text => (keyOf stop.1, text)

/-- Flattening writes a path as the key that is given. The first array that the walk meets is the
error. If it meets none, there is a map, with the keys of the scalars in the order in which they
first appeared, and at each key the text of the last scalar that has it. -/
structure FlattensBy (keyOf : List String → String) (table : Table) : Prop where
  array : ∀ before path items after, tableStops table = before ++ (path, .list items) :: after →
    (∀ earlier ∈ before, ∀ others, earlier.2 ≠ .list others) →
      flatten table = .error ⟨keyOf path⟩
  scalars : (∀ stop ∈ tableStops table, ∀ items, stop.2 ≠ .list items) →
    ∃ map, flatten table = .ok map ∧
      (∀ key, map.get? key = Entries.lookup? key (leavesBy keyOf table).reverse) ∧
      map.keys = (Entries.names (leavesBy keyOf table)).eraseDups

theorem leafAt_eq (stop : List String × Value) :
    leafAt "" stop = match stop.2.scalarText? with
      | some text => .ok (namedPath stop.1, text)
      | none => .error ⟨namedPath stop.1⟩ := by
  rw [leafAt, foldl_joinPath]

theorem leafAt_of_scalar {stop : List String × Value} {text : String}
    (scalar : stop.2.scalarText? = some text) : leafAt "" stop = .ok (namedPath stop.1, text) := by
  rw [leafAt_eq, scalar]

/-- Over scalars alone the pass collects every one of them. -/
theorem mapM_leafAt_of_scalars {stops : List (List String × Value)}
    (scalars : ∀ stop ∈ stops, ∃ text, stop.2.scalarText? = some text) :
    stops.mapM (leafAt "") = .ok (stops.filterMap fun stop =>
      stop.2.scalarText?.map fun text => (namedPath stop.1, text)) := by
  induction stops with
  | nil => rfl
  | cons stop rest inductionHypothesis =>
    obtain ⟨text, scalar⟩ := scalars stop List.mem_cons_self
    have later := inductionHypothesis fun other member =>
      scalars other (List.mem_cons_of_mem _ member)
    rw [List.mapM_cons, leafAt_of_scalar scalar, later,
      List.filterMap_cons_some (by rw [scalar]; rfl)]
    rfl

theorem flattensBy_namedPath (table : Table) : FlattensBy namedPath table where
  array before path items after split scalars := by
    have passed : ∀ earlier ∈ before, ∃ leaf, leafAt "" earlier = .ok leaf := by
      intro earlier member
      have stops : earlier ∈ tableStops table := split ▸ List.mem_append_left _ member
      obtain ⟨text, scalar⟩ := scalar_of_mem_tableStops stops (scalars earlier member)
      exact ⟨_, leafAt_of_scalar scalar⟩
    have failed : leafAt "" (path, .list items) = .error ⟨namedPath path⟩ := by
      rw [leafAt_eq]
      rfl
    rw [flatten, tableLeaves_eq_mapM, split, mapM_error_of_first passed failed]
    rfl
  scalars noLists := by
    have collected := mapM_leafAt_of_scalars fun stop member =>
      scalar_of_mem_tableStops member (noLists stop member)
    refine ⟨SettingsMap.ofList (leavesBy namedPath table), ?_, fun key => ?_, ?_⟩
    · rw [flatten, tableLeaves_eq_mapM, collected]
      rfl
    · rw [SettingsMap.ofList, SettingsMap.get?_insertAll_last, SettingsMap.get?_empty,
        Option.or_none]
    · rw [SettingsMap.ofList, SettingsMap.keys_insertAll, SettingsMap.keys_empty,
        List.nil_append]

/-- Another way to write the paths that are met is no other flattening. -/
theorem FlattensBy.congr {left right : List String → String} {table : Table}
    (flattens : FlattensBy left table)
    (same : ∀ stop ∈ tableStops table, left stop.1 = right stop.1) : FlattensBy right table := by
  have leaves : leavesBy left table = leavesBy right table := by
    refine List.filterMap_congr fun stop member => ?_
    rw [same stop member]
  refine ⟨fun before path items after split scalars => ?_, ?_⟩
  · have member : (path, Value.list items) ∈ tableStops table := split ▸ by simp
    rw [flattens.array before path items after split scalars, same _ member]
  · rw [← leaves]
    exact flattens.scalars

/-- Where there is a map, the walk met no array. -/
theorem noList_of_flatten_ok {table : Table} {map : SettingsMap}
    (flattened : flatten table = .ok map) :
    ∀ stop ∈ tableStops table, ∀ items, stop.2 ≠ .list items := by
  intro stop member items array
  rw [flatten, tableLeaves_eq_mapM] at flattened
  obtain ⟨leaves, passed, -⟩ := map_eq_ok_iff.mp flattened
  obtain ⟨leaf, here⟩ := ok_of_mapM_ok passed stop member
  rw [leafAt_eq, array] at here
  cases here

/-- The last scalar with a key gives the text at that key. -/
theorem get?_of_last {table : Table} {map : SettingsMap} (flattened : flatten table = .ok map)
    {before after : List (List String × Value)} {path : List String} {value : Value} {text : String}
    (split : tableStops table = before ++ (path, value) :: after)
    (scalar : value.scalarText? = some text)
    (last : ∀ later ∈ after, namedPath later.1 ≠ namedPath path) :
    map.get? (namedPath path) = some text := by
  obtain ⟨given, same, values, -⟩ :=
    (flattensBy_namedPath table).scalars (noList_of_flatten_ok flattened)
  obtain rfl := Except.ok.inj (flattened.symm.trans same)
  have absent : Entries.lookup? (namedPath path) ((after.filterMap fun stop =>
      stop.2.scalarText?.map fun text => (namedPath stop.1, text)).reverse) = none := by
    rw [Entries.lookup?_eq_none_iff, Entries.names, List.map_reverse, List.mem_reverse]
    intro member
    obtain ⟨leaf, collected, named⟩ := List.mem_map.mp member
    obtain ⟨stop, later, written⟩ := List.mem_filterMap.mp collected
    obtain ⟨_, -, rfl⟩ := Option.map_eq_some_iff.mp written
    exact last stop later named
  rw [values, leavesBy, split, List.filterMap_append,
    List.filterMap_cons_some (by rw [scalar]; rfl), List.reverse_append, List.reverse_cons,
    Entries.lookup?_append, Entries.lookup?_append, absent, Option.none_or]
  simp [Entries.lookup?]

/-! ### Tables of documents -/

theorem mem_insertSorted_iff {name : String} {value : Value} {table : Table}
    {entry : String × Value} :
    entry ∈ insertSorted name value table ↔ entry = (name, value) ∨ entry ∈ table := by
  induction table with
  | nil => simp [insertSorted]
  | cons first rest inductionHypothesis =>
    rw [insertSorted]
    split
    · exact List.mem_cons
    · rw [List.mem_cons, inductionHypothesis, List.mem_cons]
      exact or_left_comm

theorem sorted_insertSorted (name : String) (value : Value) {table : Table}
    (sorted : (table.map Prod.fst).Pairwise (· ≤ ·)) :
    ((insertSorted name value table).map Prod.fst).Pairwise (· ≤ ·) := by
  induction table with
  | nil => exact List.pairwise_singleton _ _
  | cons first rest inductionHypothesis =>
    obtain ⟨least, others⟩ := List.pairwise_cons.mp sorted
    rw [insertSorted]
    split
    · next earlier =>
      have before : name ≤ first.1 := (String.le_total name first.1).resolve_right
        (String.not_le.mpr earlier)
      refine List.pairwise_cons.mpr ⟨fun other member => ?_, sorted⟩
      rcases List.mem_cons.mp member with rfl | later
      · exact before
      · exact String.le_trans before (least other later)
    · next later =>
      refine List.pairwise_cons.mpr ⟨fun other member => ?_, inductionHypothesis others⟩
      obtain ⟨entry, placed, rfl⟩ := List.mem_map.mp member
      rcases mem_insertSorted_iff.mp placed with rfl | old
      · exact String.not_lt.mp later
      · exact least _ (List.mem_map_of_mem old)

/-- One more entry in order keeps a table in order, if what it holds is. -/
theorem InOrder.insertSorted {table : Table} (ordered : InOrder table) (name : String)
    {value : Value} (inside : ∀ inner, value = .table inner → InOrder inner) :
    InOrder (insertSorted name value table) := by
  obtain ⟨sorted, others⟩ := ordered
  refine .sorted (sorted_insertSorted name value sorted) fun other inner member => ?_
  rcases mem_insertSorted_iff.mp member with same | old
  · exact inside inner (Prod.mk.inj same).2.symm
  · exact others other inner old

theorem inOrder_nil : InOrder [] :=
  .sorted .nil nofun

mutual

theorem inOrder_of_normal? : ∀ (value : Value) (inner : Table),
    value.normal? = some (.table inner) → InOrder inner
  | .table [], _, given => by
    obtain rfl := Value.table.inj (Option.some.inj given)
    exact inOrder_nil
  | .table ((name, value) :: rest), inner, given => by
    rw [Value.normal?] at given
    split at given
    · obtain ⟨_, -, other⟩ := Option.map_eq_some_iff.mp given
      cases other
    · obtain ⟨first, normal, given⟩ := Option.bind_eq_some_iff.mp given
      obtain ⟨others, normalRest, same⟩ := Option.bind_eq_some_iff.mp given
      obtain rfl := Value.table.inj (Option.some.inj same)
      refine (inOrder_of_normalTable? rest others normalRest).insertSorted name ?_
      rintro held rfl
      exact inOrder_of_normal? value held normal
  | .list _, _, given => by
    obtain ⟨_, -, other⟩ := Option.map_eq_some_iff.mp given
    cases other
  | .text _, _, given => nomatch Option.some.inj given
  | .integer _, _, given => nomatch Option.some.inj given
  | .real _, _, given => nomatch Option.some.inj given
  | .boolean _, _, given => nomatch Option.some.inj given
  | .moment _, _, given => nomatch Option.some.inj given

theorem inOrder_of_normalTable? : ∀ (entries table : List (String × Value)),
    normalTable? entries = some table → InOrder table
  | [], _, given => by
    obtain rfl := Option.some.inj given
    exact inOrder_nil
  | (name, value) :: rest, table, given => by
    rw [normalTable?] at given
    obtain ⟨first, normal, given⟩ := Option.bind_eq_some_iff.mp given
    obtain ⟨others, normalRest, same⟩ := Option.bind_eq_some_iff.mp given
    obtain rfl := Option.some.inj same
    refine (inOrder_of_normalTable? rest others normalRest).insertSorted name ?_
    rintro held rfl
    exact inOrder_of_normal? value held normal

end

/-- The settings of a document are those of its table in normal form. -/
theorem fromToml_eq {text : String} {table : Table}
    (given : (Toml.parse? text).bind normalTable? = some table) (path : String) :
    Source.fromToml path text =
      (flatten table).mapError fun array => .arrayValue path array.path := by
  unfold Source.fromToml
  rw [given]
  cases outcome : flatten table <;> simp only [outcome] <;> rfl

/-- Flattening a table joins the names of each path by points, less the empty names at its
beginning. So if no path that the walk meets begins with an unnamed table, it joins all names of
every path; and just the paths that do get another key. The table of a document is walked in the
order of its names, and an array in it is the error of the document, named by its path. -/
theorem flatten_by_paths (table : Table) :
    FlattensBy namedPath table ∧
    ((∀ stop ∈ tableStops table, ¬ BeginsUnnamed stop.1) → FlattensBy joinedPath table) ∧
    (∀ path, namedPath path = joinedPath path ↔ ¬ BeginsUnnamed path) ∧
    (∀ path found, (path, found) ∈ tableStops table ↔
      Reaches table path found ∧ ∀ inner, found ≠ .table inner) ∧
    ∀ path text, (Toml.parse? text).bind normalTable? = some table → InOrder table ∧
      Source.fromToml path text =
        (flatten table).mapError fun array => .arrayValue path array.path := by
  have flattens := flattensBy_namedPath table
  refine ⟨flattens, fun named => flattens.congr fun stop member => ?_, namedPath_eq_joinedPath_iff,
    fun path found => mem_tableStops_iff, fun path text given => ⟨?_, fromToml_eq given path⟩⟩
  · exact (namedPath_eq_joinedPath_iff stop.1).mpr (named stop member)
  · obtain ⟨entries, -, normal⟩ := Option.bind_eq_some_iff.mp given
    exact inOrder_of_normalTable? entries table normal

/-- A name inside an unnamed table comes under the key of the same name outside it. -/
theorem unnamed_table_lost :
    Source.fromToml "t" "[\"\"]\na = \"x\"\n" = .ok (SettingsMap.ofList [("a", "x")]) ∧
      ¬ FlattensBy joinedPath [("", .table [("a", .text "x")])] := by
  refine ⟨by decide +kernel, fun flattens => ?_⟩
  obtain ⟨map, flattened, -, keys⟩ := flattens.scalars (by simp [tableStops, Value.stops])
  have lost : flatten [("", .table [("a", .text "x")])] = .ok (SettingsMap.ofList [("a", "x")]) :=
    rfl
  obtain rfl := Except.ok.inj (flattened.symm.trans lost)
  exact absurd keys (by decide)

end Toml

end ConnectorSettings
