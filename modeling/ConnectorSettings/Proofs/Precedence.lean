/-
This file proves the law of precedence. The keys of a setting form a ranking: under a scope, the
scoped key below each ecosystem name and then alone, and behind them the unscoped key below each
name and then alone. Unless the environment speaks, a lookup gives the first key of the ranking that
the map holds, and the fallback where it holds none.

A ranking is split at a key, into what stands before it and what stands after it, and every
statement is about such a split. Writing a key matters only where nothing before its first position
is present; erasing the key that won hands the lookup over to what stands after it, less the further
positions of the same key, since names may repeat and so may the keys built from them.
-/

import ConnectorSettings.S3

namespace ConnectorSettings

namespace View

/-! ### The environment first -/

/-- The value of the setting's variable, or else what is found without it. -/
def underVariable (environment : Environment) (setting : Setting) (otherwise : Option Found) :
    Except SettingError (Option Found) :=
  match setting.variableName with
  | none => .ok otherwise
  | some name =>
    match environment.read name with
    | .present value => .ok (some ⟨Text.trimmed value, .environment name⟩)
    | .undecodable bytes => .error (.malformed name (Utf8.decodeLossy bytes) "UTF-8 string")
    | .absent => .ok otherwise

/-- The environment has no variable for the setting. -/
def Silent (environment : Environment) (setting : Setting) : Prop :=
  ∀ name, setting.variableName = some name → environment.read name = .absent

theorem find_eq_underVariable (view : View) (setting : Setting) :
    view.find setting =
      underVariable view.environment setting (view.findInMap setting) := rfl

theorem underVariable_of_silent {environment : Environment} {setting : Setting}
    (silent : Silent environment setting) (otherwise : Option Found) :
    underVariable environment setting otherwise = .ok otherwise := by
  unfold underVariable
  cases named : setting.variableName with
  | none => rfl
  | some name => simp only [silent name named]

/-- The environment counts through the variable of the setting only. -/
theorem underVariable_congr {left right : Environment} {setting : Setting}
    (same : ∀ name, setting.variableName = some name → left.bytes? name = right.bytes? name) :
    underVariable left setting = underVariable right setting := by
  funext otherwise
  unfold underVariable
  cases named : setting.variableName with
  | none => rfl
  | some name =>
    have alike : left.read name = right.read name := by
      rw [Environment.read, Environment.read, same name named]
    simp only [alike]

theorem read_of_undecodable {environment : Environment} {name : String} {bytes : Utf8.Bytes}
    (held : environment.bytes? name = some bytes) (noText : Utf8.decode? bytes = none) :
    environment.read name = .undecodable bytes := by
  unfold Environment.read
  simp only [held, noText]

theorem find_of_undecodable {view : View} {setting : Setting} {name : String}
    {bytes : Utf8.Bytes} (named : setting.variableName = some name)
    (held : view.environment.bytes? name = some bytes) (noText : Utf8.decode? bytes = none) :
    view.find setting = .error (.malformed name (Utf8.decodeLossy bytes) "UTF-8 string") := by
  rw [find_eq_underVariable]
  simp only [underVariable, named, read_of_undecodable held noText]

theorem find_of_variable {view : View} {setting : Setting} {name value : String}
    (named : setting.variableName = some name)
    (present : view.environment.read name = .present value) :
    view.find setting = .ok (some ⟨Text.trimmed value, .environment name⟩) := by
  rw [find_eq_underVariable]
  simp only [underVariable, named, present]

/-! ### Rankings -/

/-- One key below every ecosystem name, and behind them the key alone. -/
def block (aliases : List String) (key : String) (forwarded direct : String → Origin) :
    List (String × Origin) :=
  aliases.map (fun ecosystem => (ecosystem ++ key, forwarded (ecosystem ++ key))) ++
    [(key, direct key)]

/-- The keys of a setting, from the highest precedence to the lowest. Only a scope that is not empty
has keys of its own. -/
def ranking (layout : KeyLayout) (aliases : List String) (setting : Setting) :
    Option String → List (String × Origin)
  | some scope =>
    (if scope = "" then []
      else block aliases (layout.keyFor setting.suffix scope) .scopedAlias .scopedKey) ++
      block aliases (layout.key setting.suffix) .aliasKey .canonicalKey
  | none => block aliases (layout.key setting.suffix) .aliasKey .canonicalKey

theorem mem_block_iff {aliases : List String} {key : String} {forwarded direct : String → Origin}
    {candidate : String × Origin} : candidate ∈ block aliases key forwarded direct ↔
      (∃ ecosystem ∈ aliases, (ecosystem ++ key, forwarded (ecosystem ++ key)) = candidate) ∨
        candidate = (key, direct key) := by
  rw [block, List.mem_append, List.mem_map, List.mem_singleton]

theorem front_of_mem_block {aliases : List String} {key : String}
    {forwarded direct : String → Origin} {candidate : String × Origin}
    (member : candidate ∈ block aliases key forwarded direct) :
    ∃ front, (front = "" ∨ front ∈ aliases) ∧ candidate.1 = front ++ key := by
  rcases mem_block_iff.mp member with ⟨ecosystem, listed, rfl⟩ | rfl
  · exact ⟨ecosystem, .inr listed, rfl⟩
  · exact ⟨"", .inl rfl, String.empty_append.symm⟩

/-- Every key of a ranking belongs to the scope or to no scope, with the name of one ecosystem at
most in front of it. -/
theorem front_of_mem_ranking {layout : KeyLayout} {aliases : List String} {setting : Setting}
    {scope : Option String} {candidate : String × Origin}
    (member : candidate ∈ ranking layout aliases setting scope) :
    ∃ place front, (place = none ∨ place = scope) ∧ (front = "" ∨ front ∈ aliases) ∧
      candidate.1 = front ++ layout.keyUnder setting.suffix place := by
  cases scope with
  | none =>
    obtain ⟨front, named, same⟩ := front_of_mem_block member
    exact ⟨none, front, .inl rfl, named, same⟩
  | some name =>
    rcases List.mem_append.mp member with narrow | wide
    · by_cases empty : name = ""
      · rw [if_pos empty] at narrow
        cases narrow
      · rw [if_neg empty] at narrow
        obtain ⟨front, named, same⟩ := front_of_mem_block narrow
        exact ⟨some name, front, .inr rfl, named, same⟩
    · obtain ⟨front, named, same⟩ := front_of_mem_block wide
      exact ⟨none, front, .inl rfl, named, same⟩

/-- The view that a map is seen through once every choice is made. -/
def overMap (layout : KeyLayout) (settings : List Setting) (environment : Environment)
    (scope : Option String) (aliases : List String) (map : SettingsMap) : View :=
  ((global map layout settings environment).withScope scope).withAliases aliases

theorem candidates_overMap (layout : KeyLayout) (settings : List Setting)
    (environment : Environment) (scope : Option String) (aliases : List String)
    (map : SettingsMap) (setting : Setting) :
    (overMap layout settings environment scope aliases map).candidates setting =
      ranking layout aliases setting scope := by
  cases scope with
  | none => rfl
  | some scope =>
    by_cases empty : scope = ""
    · subst empty
      rfl
    · have kept : (some scope).filter (fun name => !name.isEmpty) = some scope := by
        simp [empty]
      simp only [candidates, scopedCandidates, overMap, withScope, withAliases, kept, ranking,
        if_neg empty]
      rfl

/-! ### The first key that is present -/

/-- What a ranking gives over a map: the value of the first key that the map holds, without the
blanks around it, or the fallback as it stands. -/
inductive Yields (map : SettingsMap) (fallback : Option String)
    (ranking : List (String × Origin)) : Option Found → Prop
  | key (before : List (String × Origin)) {after : List (String × Origin)} {key : String}
      {origin : Origin} {value : String} (split : ranking = before ++ (key, origin) :: after)
      (skipped : ∀ candidate ∈ before, map.get? candidate.1 = none)
      (present : map.get? key = some value) :
      Yields map fallback ranking (some ⟨Text.trimmed value, origin⟩)
  | fallback (absent : ∀ candidate ∈ ranking, map.get? candidate.1 = none) :
      Yields map fallback ranking (fallback.map fun text => ⟨text, .fallback⟩)

theorem findInMap_eq_or (view : View) (setting : Setting) :
    view.findInMap setting = (firstPresent view.map (view.candidates setting)).or
      (setting.fallback.map fun text => ⟨text, .fallback⟩) := by
  unfold findInMap
  cases firstPresent view.map (view.candidates setting) <;> rfl

theorem firstPresent_cons (map : SettingsMap) (key : String) (origin : Origin)
    (rest : List (String × Origin)) :
    firstPresent map ((key, origin) :: rest) =
      ((map.get? key).map fun value => ⟨Text.trimmed value, origin⟩).or
        (firstPresent map rest) := by
  rw [firstPresent]
  cases map.get? key <;> rfl

theorem firstPresent_append (map : SettingsMap) (left right : List (String × Origin)) :
    firstPresent map (left ++ right) = (firstPresent map left).or (firstPresent map right) := by
  induction left with
  | nil => rfl
  | cons candidate rest inductionHypothesis =>
    rw [List.cons_append, firstPresent_cons, firstPresent_cons, inductionHypothesis,
      Option.or_assoc]

theorem firstPresent_eq_none (map : SettingsMap) {ranking : List (String × Origin)}
    (absent : ∀ candidate ∈ ranking, map.get? candidate.1 = none) :
    firstPresent map ranking = none := by
  induction ranking with
  | nil => rfl
  | cons candidate rest inductionHypothesis =>
    rw [firstPresent_cons, absent candidate List.mem_cons_self,
      inductionHypothesis fun other member => absent other (List.mem_cons_of_mem _ member)]
    rfl

/-- What stands before the first key that is present does not matter. -/
theorem firstPresent_of_skipped (map : SettingsMap) {before : List (String × Origin)}
    (rest : List (String × Origin))
    (skipped : ∀ candidate ∈ before, map.get? candidate.1 = none) :
    firstPresent map (before ++ rest) = firstPresent map rest := by
  rw [firstPresent_append, firstPresent_eq_none map skipped, Option.none_or]

theorem firstPresent_of_present (map : SettingsMap) {before : List (String × Origin)}
    {key value : String} (origin : Origin) (after : List (String × Origin))
    (skipped : ∀ candidate ∈ before, map.get? candidate.1 = none)
    (present : map.get? key = some value) :
    firstPresent map (before ++ (key, origin) :: after) =
      some ⟨Text.trimmed value, origin⟩ := by
  rw [firstPresent_of_skipped map _ skipped, firstPresent_cons, present]
  rfl

theorem firstPresent_congr {left right : SettingsMap} {ranking : List (String × Origin)}
    (same : ∀ candidate ∈ ranking, left.get? candidate.1 = right.get? candidate.1) :
    firstPresent left ranking = firstPresent right ranking := by
  induction ranking with
  | nil => rfl
  | cons candidate rest inductionHypothesis =>
    rw [firstPresent_cons, firstPresent_cons, same candidate List.mem_cons_self,
      inductionHypothesis fun other member => same other (List.mem_cons_of_mem _ member)]

theorem yields_of_firstPresent (map : SettingsMap) (fallback : Option String)
    (ranking : List (String × Origin)) :
    Yields map fallback ranking
      ((firstPresent map ranking).or (fallback.map fun text => ⟨text, .fallback⟩)) := by
  induction ranking with
  | nil => exact .fallback fun candidate member => absurd member List.not_mem_nil
  | cons candidate rest inductionHypothesis =>
    obtain ⟨key, origin⟩ := candidate
    rw [firstPresent_cons]
    cases here : map.get? key with
    | some value => exact .key [] rfl (fun _ member => by cases member) here
    | none =>
      -- The tail yields what the whole yields: the head is one more key that was skipped.
      have skipHead : ∀ {keys : List (String × Origin)},
          (∀ candidate ∈ keys, map.get? candidate.1 = none) →
          ∀ candidate ∈ (key, origin) :: keys, map.get? candidate.1 = none := by
        intro keys absent candidate member
        rcases List.mem_cons.mp member with rfl | later
        · exact here
        · exact absent candidate later
      rw [Option.map_none, Option.none_or]
      generalize given : (firstPresent map rest).or _ = result at inductionHypothesis ⊢
      cases inductionHypothesis with
      | key before split skipped present =>
        exact .key ((key, origin) :: before) (congrArg ((key, origin) :: ·) split)
          (skipHead skipped) present
      | fallback absent => exact .fallback (skipHead absent)

theorem yields_iff (map : SettingsMap) (fallback : Option String)
    (ranking : List (String × Origin)) (result : Option Found) :
    Yields map fallback ranking result ↔
      (firstPresent map ranking).or (fallback.map fun text => ⟨text, .fallback⟩) = result := by
  constructor
  · intro yields
    cases yields with
    | key before split skipped present =>
      rw [split, firstPresent_of_present map _ _ skipped present]
      rfl
    | fallback absent => rw [firstPresent_eq_none map absent, Option.none_or]
  · rintro rfl
    exact yields_of_firstPresent map fallback ranking

/-! ### Writing and erasing a key -/

/-- The first position of a key in a ranking, with nothing before it that the map holds: a value
written under the key is found, with the origin of that position. -/
def Reaches (map : SettingsMap) (ranking : List (String × Origin)) (key : String)
    (origin : Origin) : Prop :=
  ∃ before after, ranking = before ++ (key, origin) :: after ∧
    ∀ candidate ∈ before, candidate.1 ≠ key ∧ map.get? candidate.1 = none

theorem firstPresent_insert_of_reaches {map : SettingsMap} {ranking : List (String × Origin)}
    {key : String} {origin : Origin} (value : String)
    (reaches : Reaches map ranking key origin) :
    firstPresent (map.insert key value) ranking = some ⟨Text.trimmed value, origin⟩ := by
  obtain ⟨before, after, rfl, clear⟩ := reaches
  refine firstPresent_of_present _ origin after (fun candidate member => ?_) ?_
  · obtain ⟨other, absent⟩ := clear candidate member
    rw [SettingsMap.get?_insert, if_neg (Ne.symm other), absent]
  · rw [SettingsMap.get?_insert, if_pos rfl]

/-- A key that something present stands in front of, or that is no candidate at all, may take any
value. -/
theorem firstPresent_insert_of_not_reaches {map : SettingsMap}
    {ranking : List (String × Origin)} {key : String} (value : String)
    (hidden : ∀ origin, ¬ Reaches map ranking key origin) :
    firstPresent (map.insert key value) ranking = firstPresent map ranking := by
  induction ranking with
  | nil => rfl
  | cons candidate rest inductionHypothesis =>
    obtain ⟨name, origin⟩ := candidate
    have other : key ≠ name := by
      rintro rfl
      exact hidden origin ⟨[], rest, rfl, fun _ member => absurd member List.not_mem_nil⟩
    rw [firstPresent_cons, firstPresent_cons, SettingsMap.get?_insert, if_neg other]
    cases here : map.get? name with
    | some _ => rfl
    | none =>
      refine congrArg (Option.or none) (inductionHypothesis fun later reaches => ?_)
      obtain ⟨before, after, split, clear⟩ := reaches
      refine hidden later ⟨(name, origin) :: before, after, congrArg _ split, ?_⟩
      intro candidate member
      rcases List.mem_cons.mp member with rfl | member
      · exact ⟨Ne.symm other, here⟩
      · exact clear candidate member

/-- Over a map without the key, its positions in a ranking may as well not be there. -/
theorem firstPresent_erase (map : SettingsMap) (key : String)
    (ranking : List (String × Origin)) :
    firstPresent (map.erase key) ranking =
      firstPresent map (ranking.filter fun candidate => candidate.1 ≠ key) := by
  induction ranking with
  | nil => rfl
  | cons candidate rest inductionHypothesis =>
    obtain ⟨name, origin⟩ := candidate
    rw [firstPresent_cons, SettingsMap.get?_erase, inductionHypothesis]
    by_cases same : key = name
    · rw [if_pos same, List.filter_cons_of_neg (by simp [same])]
      rfl
    · rw [if_neg same, List.filter_cons_of_pos (by simp [Ne.symm same]), firstPresent_cons]

theorem firstPresent_erase_of_skipped (map : SettingsMap) {before : List (String × Origin)}
    (key : String) (origin : Origin) (after : List (String × Origin))
    (skipped : ∀ candidate ∈ before, map.get? candidate.1 = none) :
    firstPresent (map.erase key) (before ++ (key, origin) :: after) =
      firstPresent map (after.filter fun candidate => candidate.1 ≠ key) := by
  have absent : ∀ candidate ∈ before, (map.erase key).get? candidate.1 = none := by
    intro candidate member
    rw [SettingsMap.get?_erase, skipped candidate member, ite_self]
  rw [firstPresent_of_skipped _ _ absent, firstPresent_erase,
    List.filter_cons_of_neg (by simp)]

/-! ### The law -/

theorem findInMap_overMap (layout : KeyLayout) (settings : List Setting)
    (environment : Environment) (scope : Option String) (aliases : List String)
    (map : SettingsMap) (setting : Setting) :
    (overMap layout settings environment scope aliases map).findInMap setting =
      (firstPresent map (ranking layout aliases setting scope)).or
        (setting.fallback.map fun text => ⟨text, .fallback⟩) := by
  rw [findInMap_eq_or, candidates_overMap]
  rfl

theorem find_overMap (layout : KeyLayout) (settings : List Setting) (environment : Environment)
    (scope : Option String) (aliases : List String) (map : SettingsMap) (setting : Setting) :
    (overMap layout settings environment scope aliases map).find setting =
      underVariable environment setting
        ((firstPresent map (ranking layout aliases setting scope)).or
          (setting.fallback.map fun text => ⟨text, .fallback⟩)) := by
  rw [find_eq_underVariable, findInMap_overMap]
  rfl

/-- A lookup depends on the map through the keys of the ranking only. -/
theorem find_congr (layout : KeyLayout) (settings : List Setting) (environment : Environment)
    (scope : Option String) (aliases : List String) {left right : SettingsMap}
    {setting : Setting} (same : ∀ candidate ∈ ranking layout aliases setting scope,
      left.get? candidate.1 = right.get? candidate.1) :
    (overMap layout settings environment scope aliases left).find setting =
      (overMap layout settings environment scope aliases right).find setting := by
  rw [find_overMap, find_overMap, firstPresent_congr same]

theorem find_overMap_of_silent (layout : KeyLayout) (settings : List Setting)
    {environment : Environment} (scope : Option String) (aliases : List String)
    (map : SettingsMap) {setting : Setting} (silent : Silent environment setting) :
    (overMap layout settings environment scope aliases map).find setting =
      .ok ((firstPresent map (ranking layout aliases setting scope)).or
        (setting.fallback.map fun text => ⟨text, .fallback⟩)) := by
  rw [find_overMap, underVariable_of_silent silent]

/-- The law of precedence. A lookup that the environment leaves alone gives what the ranking of the
setting's keys yields. A value written under a key is found, with the origin of the key's first
position, where nothing before that position is present, and changes nothing elsewhere. Where a key
is erased that nothing present stands before, as the winning key is, the rest of the ranking
decides. -/
theorem find_follows_ranking (layout : KeyLayout) (settings : List Setting)
    (environment : Environment) (scope : Option String) (aliases : List String)
    (map : SettingsMap) (setting : Setting) (silent : Silent environment setting) :
    let find := fun map => (overMap layout settings environment scope aliases map).find setting
    let ranking := ranking layout aliases setting scope
    (∀ result, find map = .ok result ↔ Yields map setting.fallback ranking result) ∧
    (∀ key value origin, Reaches map ranking key origin →
      find (map.insert key value) = .ok (some ⟨Text.trimmed value, origin⟩)) ∧
    (∀ key value, (∀ origin, ¬ Reaches map ranking key origin) →
      find (map.insert key value) = find map) ∧
    (∀ before key origin after, ranking = before ++ (key, origin) :: after →
      (∀ candidate ∈ before, map.get? candidate.1 = none) →
      ∀ result, find (map.erase key) = .ok result ↔
        Yields map setting.fallback (after.filter fun candidate => candidate.1 ≠ key)
          result) := by
  intro find ranking
  have given : ∀ map, find map = .ok ((firstPresent map ranking).or
      (setting.fallback.map fun text => ⟨text, .fallback⟩)) := fun map =>
    find_overMap_of_silent layout settings scope aliases map silent
  refine ⟨fun result => ?_, fun key value origin reaches => ?_, fun key value hidden => ?_, ?_⟩
  · rw [given, yields_iff, Except.ok.injEq]
  · rw [given, firstPresent_insert_of_reaches value reaches]
    rfl
  · rw [given, given, firstPresent_insert_of_not_reaches value hidden]
  · intro before key origin after split skipped result
    rw [given, split, firstPresent_erase_of_skipped map key origin after skipped, yields_iff,
      Except.ok.injEq]

/-- Under the same name twice, erasing the winning key also passes over its second position. -/
theorem find_follows_ranking_repeated_name :
    let map := SettingsMap.ofList
      [("spark.hadoop.fs.s3a.bucket.logs.endpoint", " a "), ("fs.s3a.endpoint", "b")]
    let find := fun map => (overMap S3.layout S3.table .empty (some "logs")
      ["spark.hadoop.", "spark.hadoop."] map).find S3.endpoint
    Silent .empty S3.endpoint ∧
      find map = .ok (some ⟨"a", .scopedAlias "spark.hadoop.fs.s3a.bucket.logs.endpoint"⟩) ∧
      find (map.erase "spark.hadoop.fs.s3a.bucket.logs.endpoint") =
        .ok (some ⟨"b", .canonicalKey "fs.s3a.endpoint"⟩) := by
  intro map find
  have silent : Silent .empty S3.endpoint := fun _ _ => rfl
  have law := find_follows_ranking S3.layout S3.table .empty (some "logs")
    ["spark.hadoop.", "spark.hadoop."] map S3.endpoint silent
  refine ⟨silent, (law.1 _).mpr ?_, (law.2.2.2 [] _ _ _ rfl (by decide) _).mpr ?_⟩
  · exact (yields_iff _ _ _ _).mpr (by decide)
  · exact (yields_iff _ _ _ _).mpr (by decide)

end View

end ConnectorSettings
