/-
This file proves which endpoints have a region, and which region it is: an endpoint has one exactly
if it is put together from the parts of a standard endpoint, and then it is the one behind the
longest labels.

From the service on, a text has one region at most, with or without the `dualstack` label: what
follows the region begins with a point, which no region holds, and no domain goes on as a region
with a domain behind it. The labels are found by trying the points of the host from the right, as
far as no slash is passed; so whatever stands in front of a host that has a region, and a point
behind it, is tried later.
-/

import ConnectorSettings.S3.Endpoint
import ConnectorSettings.Text.Split
import Mathlib.Data.List.Basic
import Mathlib.Data.List.DropRight
import Mathlib.Data.List.TakeWhile
import Mathlib.Data.Option.Basic

namespace ConnectorSettings

namespace S3

/-! ### Behind the service -/

/-- The text is a region with a domain behind it. -/
structure IsRegionLabel (region domain : List Char) : Prop where
  filled : region ≠ []
  chars : ∀ char ∈ region, isRegionChar char = true
  known : String.ofList domain ∈ domains

/-- No region goes on into the domain. -/
theorem IsRegionLabel.parts {region domain : List Char} (label : IsRegionLabel region domain) :
    (region ++ domain).takeWhile isRegionChar = region ∧
      (region ++ domain).dropWhile isRegionChar = domain := by
  have begins : ∀ known ∈ domains, known.toList.head? = some '.' := by decide
  refine Text.takeWhile_dropWhile_append label.chars fun char first => ?_
  have point := begins _ label.known
  rw [String.toList_ofList, Option.mem_def.mp first] at point
  obtain rfl := Option.some.inj point
  decide

theorem regionLabel?_eq_some_iff {text region : List Char} :
    regionLabel? text = some region ↔ ∃ domain, text = region ++ domain ∧
      IsRegionLabel region domain := by
  rw [regionLabel?, Option.ite_none_right_eq_some, Option.some.injEq, Bool.and_eq_true_iff,
    List.contains_iff_mem, Bool.not_eq_true', List.isEmpty_eq_false_iff]
  constructor
  · rintro ⟨⟨filled, known⟩, rfl⟩
    exact ⟨_, (List.takeWhile_append_dropWhile).symm, filled,
      fun char member => List.mem_takeWhile_imp member, known⟩
  · rintro ⟨domain, rfl, label⟩
    obtain ⟨taken, dropped⟩ := label.parts
    rw [taken, dropped]
    exact ⟨⟨label.filled, label.known⟩, rfl⟩

/-- What follows the point that a domain begins with is no region with a domain behind it. -/
theorem regionLabel?_behind_domain : ∀ known ∈ domains, regionLabel? known.toList.tail = none := by
  decide

/-- Where a region with a domain begins with the label in front of a region, nothing is left after
it that is a region itself. -/
theorem regionLabel?_behind_dualStack {rest region domain : List Char}
    (same : dualStack ++ rest = region ++ domain) (label : IsRegionLabel region domain) :
    regionLabel? rest = none := by
  have word : ∀ char ∈ "dualstack".toList, isRegionChar char = true :=
    List.all_eq_true.mp (by decide)
  have ends : ∀ char ∈ ('.' :: rest).head?, isRegionChar char = false := by
    rintro _ ⟨⟩
    decide
  have taken := Text.takeWhile_dropWhile_append word ends
  have behind : domain = '.' :: rest := by
    rw [← label.parts.2, ← same]
    exact taken.2
  have known := regionLabel?_behind_domain _ label.known
  rwa [String.toList_ofList, behind] at known

theorem regionBehindService?_eq_some_iff {text region : List Char} :
    regionBehindService? text = some region ↔ ∃ dual rest, (dual = [] ∨ dual = dualStack) ∧
      text = dual ++ rest ∧ regionLabel? rest = some region := by
  unfold regionBehindService?
  by_cases front : dualStack.isPrefixOf text = true
  · obtain ⟨rest, rfl⟩ := List.isPrefixOf_iff_prefix.mp front
    rw [if_pos front, List.drop_left]
    constructor
    · intro found
      rcases (Option.orElse_eq_some _ _ _).mp found with inner | ⟨-, whole⟩
      · exact ⟨dualStack, rest, .inr rfl, rfl, inner⟩
      · exact ⟨[], _, .inl rfl, rfl, whole⟩
    · rintro ⟨dual, other, rfl | rfl, same, found⟩
      · obtain ⟨domain, split, label⟩ := regionLabel?_eq_some_iff.mp found
        rw [List.nil_append] at same
        rw [regionLabel?_behind_dualStack (same.trans split) label, same, found]
        rfl
      · obtain rfl := List.append_cancel_left same
        rw [found]
        rfl
  · rw [if_neg front]
    constructor
    · exact fun found => ⟨[], text, .inl rfl, rfl, found⟩
    · rintro ⟨dual, rest, rfl | rfl, rfl, found⟩
      · exact found
      · exact absurd (List.isPrefixOf_iff_prefix.mpr (List.prefix_append _ _)) front

theorem mem_domains_iff {domain : List Char} : String.ofList domain ∈ domains ↔
    ∃ country slash, (country = [] ∨ country = ".cn".toList) ∧ (slash = [] ∨ slash = ['/']) ∧
      domain = ".amazonaws.com".toList ++ country ++ slash := by
  constructor
  · intro known
    have listed : ∀ known ∈ domains, ∃ country ∈ [[], ".cn".toList], ∃ slash ∈ [[], ['/']],
        known.toList = ".amazonaws.com".toList ++ country ++ slash := by decide
    obtain ⟨country, isCountry, slash, isSlash, same⟩ := listed _ known
    rw [String.toList_ofList] at same
    exact ⟨country, slash, List.mem_pair.mp isCountry, List.mem_pair.mp isSlash, same⟩
  · rintro ⟨_, _, rfl | rfl, rfl | rfl, rfl⟩ <;> decide

theorem regionOfService?_cons {joint : Char} (known : joint = '.' ∨ joint = '-')
    (text : List Char) :
    regionOfService? ('s' :: '3' :: joint :: text) = regionBehindService? text := by
  rcases known with rfl | rfl <;> rfl

/-- The region behind a service is that of the parts that the text is put together from. -/
theorem regionOfService?_eq_some_iff {text region : List Char} :
    regionOfService? text = some region ↔
      ∃ service : Service, service.text = text ∧ service.region = region := by
  constructor
  · have build : ∀ {joint rest}, (joint = '.' ∨ joint = '-') →
        regionBehindService? rest = some region →
        ∃ service : Service, service.text = 's' :: '3' :: joint :: rest ∧
          service.region = region := by
      intro joint rest joined found
      obtain ⟨dual, label, isDual, rfl, labelled⟩ := regionBehindService?_eq_some_iff.mp found
      obtain ⟨domain, rfl, filled, chars, known⟩ := regionLabel?_eq_some_iff.mp labelled
      obtain ⟨country, slash, isCountry, isSlash, rfl⟩ := mem_domains_iff.mp known
      exact ⟨⟨joint, dual, region, country, slash, joined, isDual, filled, chars, isCountry,
        isSlash⟩, rfl, rfl⟩
    intro found
    unfold regionOfService? at found
    split at found
    · exact build (.inl rfl) found
    · exact build (.inr rfl) found
    · cases found
  · rintro ⟨service, rfl, rfl⟩
    rw [Service.text, regionOfService?_cons service.joint_known,
      regionBehindService?_eq_some_iff]
    refine ⟨service.dual, _, service.dual_known, rfl, regionLabel?_eq_some_iff.mpr ⟨_, rfl, ?_⟩⟩
    exact ⟨service.region_filled, service.region_chars, mem_domains_iff.mpr
      ⟨service.country, service.slash, service.country_known, service.slash_known, rfl⟩⟩

/-! ### Labels -/

theorem regionBehindLabels?_cons {char : Char} (inside : char ≠ '/') (text : List Char) :
    regionBehindLabels? (char :: text) =
      (regionBehindLabels? text <|> if char = '.' then regionOfService? text else none) := by
  rw [regionBehindLabels?, if_neg inside]

/-- What stands behind a point has a host's region. -/
theorem regionBehindLabels?_point (text : List Char) :
    regionBehindLabels? ('.' :: text) = regionOfHost? text := by
  rw [regionBehindLabels?_cons (by decide), if_pos rfl, regionOfHost?]

/-- A region that is found is found behind any labels. -/
theorem regionBehindLabels?_append {front : List Char} (inside : '/' ∉ front)
    {text region : List Char} (found : regionBehindLabels? text = some region) :
    regionBehindLabels? (front ++ text) = some region := by
  induction front with
  | nil => exact found
  | cons char front inductionHypothesis =>
    obtain ⟨first, others⟩ := List.ne_and_not_mem_of_not_mem_cons inside
    rw [List.cons_append, regionBehindLabels?_cons (Ne.symm first), inductionHypothesis others]
    rfl

/-- Labels can be put in front of a host that has a region. -/
theorem regionOfHost?_append {front : List Char} (inside : '/' ∉ front) {host region : List Char}
    (found : regionOfHost? host = some region) :
    regionOfHost? (front ++ '.' :: host) = some region := by
  have behind := regionBehindLabels?_append inside ((regionBehindLabels?_point host).trans found)
  rw [regionOfHost?, behind]
  rfl

/-- A point of the host, with no slash in front of it. -/
structure PointAt (host front behind : List Char) : Prop where
  parts : host = front ++ '.' :: behind
  inside : '/' ∉ front

theorem PointAt.cons_cases {char : Char} {text front behind : List Char}
    (point : PointAt (char :: text) front behind) :
    front = [] ∨ ∃ others, front = char :: others ∧ PointAt text others behind := by
  obtain ⟨parts, inside⟩ := point
  cases front with
  | nil => exact .inl rfl
  | cons first others =>
    obtain ⟨rfl, rest⟩ := List.cons.inj parts
    exact .inr ⟨others, rfl, rest, (List.ne_and_not_mem_of_not_mem_cons inside).2⟩

/-- A host that begins with a service has a region, though it may be that of a later service. -/
theorem exists_regionOfHost? {host : List Char} (service : regionOfService? host ≠ none) :
    ∃ region, regionOfHost? host = some region := by
  obtain ⟨own, direct⟩ := Option.ne_none_iff_exists'.mp service
  rw [regionOfHost?, direct]
  cases regionBehindLabels? host with
  | none => exact ⟨own, rfl⟩
  | some region => exact ⟨region, rfl⟩

/-- A service behind some point is not overlooked. -/
theorem PointAt.exists_region {host front behind : List Char} (point : PointAt host front behind)
    (service : regionOfService? behind ≠ none) :
    ∃ region, regionBehindLabels? host = some region := by
  obtain ⟨region, found⟩ := exists_regionOfHost? service
  rw [point.parts]
  exact ⟨region, regionBehindLabels?_append point.inside
    ((regionBehindLabels?_point behind).trans found)⟩

/-- The point is the last one with a service behind it. -/
structure LastPoint (host front behind : List Char) : Prop where
  point : PointAt host front behind
  last : ∀ other rest, PointAt host other rest → regionOfService? rest ≠ none →
    other.length ≤ front.length

theorem exists_lastPoint {host region : List Char}
    (found : regionBehindLabels? host = some region) :
    ∃ front behind, LastPoint host front behind ∧ regionOfService? behind = some region := by
  induction host with
  | nil => cases found
  | cons char text inductionHypothesis =>
    by_cases slash : char = '/'
    · rw [regionBehindLabels?, if_pos slash] at found
      cases found
    rw [regionBehindLabels?_cons slash] at found
    rcases (Option.orElse_eq_some _ _ _).mp found with later | ⟨none, here⟩
    · obtain ⟨front, behind, ⟨⟨parts, inside⟩, last⟩, service⟩ := inductionHypothesis later
      refine ⟨char :: front, behind, ⟨⟨congrArg _ parts, ?_⟩, fun other rest point known => ?_⟩,
        service⟩
      · exact List.not_mem_cons_of_ne_of_not_mem (Ne.symm slash) inside
      · rcases point.cons_cases with rfl | ⟨others, rfl, inner⟩
        · exact Nat.zero_le _
        · exact Nat.succ_le_succ (last others rest inner known)
    · rw [Option.ite_none_right_eq_some] at here
      obtain ⟨rfl, service⟩ := here
      refine ⟨[], text, ⟨⟨rfl, List.not_mem_nil⟩, fun other rest point known => ?_⟩, service⟩
      -- A point further on would have been found.
      rcases point.cons_cases with rfl | ⟨others, -, inner⟩
      · exact Nat.zero_le _
      · obtain ⟨missed, overlooked⟩ := inner.exists_region known
        rw [none] at overlooked
        cases overlooked

/-- The host is put together from these labels and the rest. -/
structure Parted (host labels rest : List Char) : Prop where
  parts : host = labels ++ rest
  whole : AreLabels labels

/-- Labels that are there end in a point. -/
theorem Parted.cases {host labels rest : List Char} (parted : Parted host labels rest) :
    labels = [] ∨ ∃ front, labels = front ++ ['.'] ∧ PointAt host front rest := by
  obtain ⟨rfl, rfl | ⟨inside, last⟩⟩ := parted
  · exact .inl rfl
  · obtain ⟨front, rfl⟩ := List.getLast?_eq_some_iff.mp last
    exact .inr ⟨front, rfl, List.append_assoc _ _ _, fun member =>
      inside (List.mem_append_left _ member)⟩

theorem PointAt.parted {host front behind : List Char} (point : PointAt host front behind) :
    Parted host (front ++ ['.']) behind where
  parts := by rw [point.parts, List.append_assoc]; rfl
  whole := .inr ⟨by simp [point.inside], List.getLast?_concat⟩

/-- No longer labels have a service behind them. -/
structure Longest (host labels rest : List Char) : Prop where
  parted : Parted host labels rest
  longest : ∀ other behind, Parted host other behind → regionOfService? behind ≠ none →
    other.length ≤ labels.length

theorem exists_longest {host region : List Char} (found : regionOfHost? host = some region) :
    ∃ labels rest, Longest host labels rest ∧ regionOfService? rest = some region := by
  rcases (Option.orElse_eq_some _ _ _).mp found with behind | ⟨none, direct⟩
  · obtain ⟨front, rest, ⟨point, last⟩, service⟩ := exists_lastPoint behind
    refine ⟨front ++ ['.'], rest, ⟨point.parted, fun other behind parted known => ?_⟩, service⟩
    rcases parted.cases with rfl | ⟨others, rfl, inner⟩
    · exact Nat.zero_le _
    · simp only [List.length_append, List.length_singleton]
      exact Nat.succ_le_succ (last others behind inner known)
  · refine ⟨[], host, ⟨⟨rfl, .inl rfl⟩, fun other behind parted known => ?_⟩, direct⟩
    rcases parted.cases with rfl | ⟨_, -, inner⟩
    · exact Nat.le_refl _
    · obtain ⟨missed, overlooked⟩ := inner.exists_region known
      rw [none] at overlooked
      cases overlooked

/-- The region of a host is that of the service behind its longest labels. -/
theorem regionOfHost?_eq_some_iff {host region : List Char} :
    regionOfHost? host = some region ↔
      ∃ labels rest, Longest host labels rest ∧ regionOfService? rest = some region := by
  constructor
  · exact exists_longest
  · rintro ⟨labels, rest, ⟨parted, longest⟩, service⟩
    have known : regionOfService? rest ≠ none := Option.ne_none_iff_exists'.mpr ⟨region, service⟩
    obtain ⟨other, found⟩ : ∃ other, regionOfHost? host = some other := by
      rcases parted.cases with rfl | ⟨front, -, point⟩
      · exact exists_regionOfHost? (parted.parts ▸ known)
      · obtain ⟨inner, behind⟩ := point.exists_region known
        exact ⟨inner, by rw [regionOfHost?, behind]; rfl⟩
    -- The labels that were found are as long as these, so they are these.
    obtain ⟨foundLabels, behind, ⟨foundParted, foundLongest⟩, foundService⟩ := exists_longest found
    have foundKnown : regionOfService? behind ≠ none :=
      Option.ne_none_iff_exists'.mpr ⟨other, foundService⟩
    have lengths : labels.length = foundLabels.length :=
      Nat.le_antisymm (foundLongest _ _ parted known) (longest _ _ foundParted foundKnown)
    obtain ⟨-, rfl⟩ := List.append_inj (parted.parts.symm.trans foundParted.parts) lengths
    rw [found, ← foundService, service]

/-! ### The scheme -/

theorem withoutScheme_of_none {text : List Char} (none : ∀ scheme ∈ schemes, ¬ scheme <+: text) :
    withoutScheme text = text := by
  have missed : (schemes.find? fun scheme => scheme.isPrefixOf text) = .none :=
    List.find?_eq_none.mpr fun scheme member front =>
      none scheme member (List.isPrefixOf_iff_prefix.mp front)
  rw [withoutScheme, missed]

/-- A scheme is taken off, whatever follows it. -/
theorem withoutScheme_append {scheme : List Char} (known : scheme ∈ schemes) (rest : List Char) :
    withoutScheme (scheme ++ rest) = rest := by
  rcases List.mem_pair.mp known with rfl | rfl <;> rfl

theorem exists_scheme (text : List Char) : ∃ scheme,
    (scheme = [] ∨ scheme = "http://".toList ∨ scheme = "https://".toList) ∧
      text = scheme ++ withoutScheme text := by
  unfold withoutScheme
  split
  · next scheme found =>
    have member := List.mem_of_find?_eq_some found
    have front := List.find?_some found
    simp only [List.isPrefixOf_iff_prefix] at front
    obtain ⟨rest, rfl⟩ := front
    refine ⟨scheme, ?_, by rw [List.drop_left]⟩
    rcases List.mem_pair.mp member with secure | plain
    · exact .inr (.inr secure)
    · exact .inr (.inl plain)
  · exact ⟨[], .inl rfl, rfl⟩

/-- A scheme holds a slash and no point, so no labels stand in front of its end. -/
theorem labels_of_scheme {labels rest scheme : List Char} (whole : AreLabels labels)
    (known : scheme ∈ schemes) (front : scheme <+: labels ++ rest) : labels = [] := by
  have signs : ∀ scheme ∈ schemes, '/' ∈ scheme ∧ '.' ∉ scheme := by decide
  obtain ⟨slash, noPoint⟩ := signs scheme known
  rcases whole with none | ⟨inside, last⟩
  · exact none
  · rcases List.prefix_or_prefix_of_prefix front (List.prefix_append labels rest) with short | long
    · exact absurd (short.subset slash) inside
    · exact absurd (long.subset (List.mem_of_getLast? last)) noPoint

theorem Service.not_scheme (service : Service) {scheme : List Char} (known : scheme ∈ schemes) :
    ¬ scheme <+: service.text := by
  intro front
  rcases List.mem_pair.mp known with rfl | rfl <;>
    exact absurd (List.cons_prefix_cons.mp front).1 (by decide)

theorem Endpoint.withoutScheme_text (endpoint : Endpoint) :
    withoutScheme endpoint.text = endpoint.labels ++ endpoint.service.text := by
  have taken := fun scheme known =>
    @withoutScheme_append scheme known (endpoint.labels ++ endpoint.service.text)
  rw [text]
  rcases endpoint.scheme_known with same | same | same
  · rw [same, List.nil_append]
    refine withoutScheme_of_none fun scheme known front => ?_
    have noLabels := labels_of_scheme endpoint.labels_whole known front
    rw [noLabels] at front
    exact endpoint.service.not_scheme known front
  · rw [same]
    exact taken _ (by decide)
  · rw [same]
    exact taken _ (by decide)

/-! ### Endpoints -/

/-- The region of a text is that of the parts with the longest labels. -/
theorem regionOfHost?_withoutScheme_eq_some_iff {text region : List Char} :
    regionOfHost? (withoutScheme text) = some region ↔
      ∃ parts : Endpoint, parts.text = text ∧ parts.service.region = region ∧
        ∀ other : Endpoint, other.text = text → other.labels.length ≤ parts.labels.length := by
  rw [regionOfHost?_eq_some_iff]
  constructor
  · rintro ⟨labels, rest, ⟨parted, longest⟩, found⟩
    obtain ⟨service, rfl, same⟩ := regionOfService?_eq_some_iff.mp found
    obtain ⟨scheme, known, split⟩ := exists_scheme text
    refine ⟨⟨scheme, labels, service, known, parted.whole⟩, ?_, same, fun other spelled => ?_⟩
    · exact (split.trans (congrArg (scheme ++ ·) parted.parts)).symm
    · refine longest _ other.service.text ⟨?_, other.labels_whole⟩ ?_
      · rw [← spelled, other.withoutScheme_text]
      · exact Option.ne_none_iff_exists'.mpr ⟨_, regionOfService?_eq_some_iff.mpr ⟨_, rfl, rfl⟩⟩
  · rintro ⟨parts, rfl, rfl, longest⟩
    rw [parts.withoutScheme_text]
    refine ⟨parts.labels, parts.service.text, ⟨⟨rfl, parts.labels_whole⟩, ?_⟩,
      regionOfService?_eq_some_iff.mpr ⟨_, rfl, rfl⟩⟩
    rintro other behind ⟨split, whole⟩ known
    obtain ⟨region, found⟩ := Option.ne_none_iff_exists'.mp known
    obtain ⟨service, rfl, -⟩ := regionOfService?_eq_some_iff.mp found
    refine longest ⟨parts.scheme, other, service, parts.scheme_known, whole⟩ ?_
    rw [Endpoint.text, Endpoint.text, split]

/-! ### Buckets -/

theorem trimEnd_append {back : List Char} (filled : Text.trimEnd back ≠ []) (front : List Char) :
    Text.trimEnd (front ++ back) = front ++ Text.trimEnd back := by
  have kept : back.reverse.dropWhile Text.isBlank ≠ [] := fun nothing =>
    filled (congrArg List.reverse nothing)
  rw [Text.trimEnd, List.reverse_append, List.dropWhile_append, if_neg (by simpa using kept),
    List.reverse_append, List.reverse_reverse]
  rfl

/-- The region of a host stays what it is with a bucket in front. -/
theorem regionOfHost?_withoutScheme_append {scheme : List Char}
    (known : scheme = [] ∨ scheme ∈ schemes) {bucket : List Char} (inside : '/' ∉ bucket)
    {host region : List Char} (found : regionOfHost? host = some region) :
    regionOfHost? (withoutScheme (scheme ++ (bucket ++ '.' :: host))) = some region := by
  have bare : withoutScheme (scheme ++ (bucket ++ '.' :: host)) = bucket ++ '.' :: host := by
    rcases known with rfl | known
    · refine withoutScheme_of_none fun scheme known front => ?_
      have labels : AreLabels (bucket ++ ['.']) :=
        .inr ⟨by simp [inside], List.getLast?_concat⟩
      rw [List.nil_append, List.append_cons] at front
      exact absurd (labels_of_scheme labels known front) (by simp)
    · exact withoutScheme_append known _
  rw [bare, regionOfHost?_append inside found]

/-- Only the end of such a host is cut. -/
theorem trimEnd_ne_nil {host : List Char} (filled : host ≠ [])
    (noBlank : ∀ char ∈ host.head?, Text.isBlank char = false) : Text.trimEnd host ≠ [] := by
  intro nothing
  rw [Text.trimEnd, List.reverse_eq_nil_iff, List.dropWhile_eq_nil_iff] at nothing
  cases host with
  | nil => exact filled rfl
  | cons first rest =>
    have blank := nothing first (List.mem_reverse.mpr List.mem_cons_self)
    rw [noBlank first rfl] at blank
    cases blank

theorem trimStart_append_point (front rest : List Char) :
    Text.trimStart (front ++ '.' :: rest) = Text.trimStart front ++ '.' :: rest := by
  rw [Text.trimStart, List.dropWhile_append]
  split
  · next blank =>
    rw [Text.trimStart, List.isEmpty_iff.mp blank]
    rfl
  · rfl

/-- A scheme does not begin with a blank. -/
theorem trimStart_scheme_append {scheme : List Char} (known : scheme ∈ schemes) (rest : List Char) :
    Text.trimStart (scheme ++ rest) = scheme ++ rest := by
  rcases List.mem_pair.mp known with rfl | rfl <;>
    exact Text.trimStart_of_head? (by rintro _ ⟨⟩; decide)

/-- A bucket does not change the region of an endpoint that has one. -/
theorem regionOf?_bucket {scheme bucket host region : String}
    (known : scheme = "" ∨ scheme = "http://" ∨ scheme = "https://")
    (noScheme : ∀ other ∈ schemes, ¬ other <+: host.toList)
    (noBlank : ∀ char ∈ host.toList.head?, Text.isBlank char = false)
    (inside : '/' ∉ bucket.toList) (found : regionOf? (scheme ++ host) = some region) :
    regionOf? (scheme ++ bucket ++ "." ++ host) = some region := by
  have listed : scheme.toList = [] ∨ scheme.toList ∈ schemes := by
    rcases known with rfl | rfl | rfl <;> decide
  have filled : Text.trimEnd host.toList ≠ [] := by
    refine trimEnd_ne_nil (fun nothing => ?_) noBlank
    rw [String.toList_eq_nil_iff.mp nothing] at found
    rcases known with rfl | rfl | rfl <;> cases found
  -- In front of a host that begins with no scheme itself, the scheme is what is taken off.
  have bare : withoutScheme (Text.trim (scheme ++ host).toList) = Text.trimEnd host.toList := by
    rw [String.toList_append, Text.trim]
    rcases listed with none | some
    · rw [none, List.nil_append, Text.trimStart_of_head? noBlank]
      refine withoutScheme_of_none fun other member front => noScheme other member ?_
      exact front.trans (List.rdropWhile_prefix _ _)
    · rw [trimStart_scheme_append some, trimEnd_append filled, withoutScheme_append some]
  obtain ⟨front, noSlash, parts⟩ : ∃ front, '/' ∉ front ∧
      Text.trim (scheme ++ bucket ++ "." ++ host).toList =
        scheme.toList ++ (front ++ '.' :: Text.trimEnd host.toList) := by
    have point : ".".toList = ['.'] := by decide
    have ends : Text.trimEnd ('.' :: host.toList) = '.' :: Text.trimEnd host.toList :=
      trimEnd_append filled ['.']
    have rest : Text.trimEnd ('.' :: host.toList) ≠ [] := ends ▸ List.cons_ne_nil _ _
    simp only [String.toList_append, point, List.append_assoc, List.singleton_append, Text.trim]
    rcases listed with none | some
    · refine ⟨Text.trimStart bucket.toList, fun member => inside ?_, ?_⟩
      · exact (List.dropWhile_suffix _).subset member
      · rw [none, List.nil_append, List.nil_append, trimStart_append_point, trimEnd_append rest,
          ends]
    · refine ⟨bucket.toList, inside, ?_⟩
      rw [trimStart_scheme_append some, ← List.append_assoc, trimEnd_append rest, ends,
        List.append_assoc]
  rw [regionOf?, bare] at found
  obtain ⟨chars, hosted, rfl⟩ := Option.map_eq_some_iff.mp found
  rw [regionOf?, parts, regionOfHost?_withoutScheme_append listed noSlash hosted]
  rfl

/-- Reading the region accepts exactly the standard endpoints, with blanks around them or not, and
gives the region of the parts with the longest labels. So a bucket in front of a host does not
change the region, wherever there is one. -/
theorem regionOf?_follows_grammar (endpoint region : String) :
    (regionOf? endpoint = some region ↔ ∃ parts : Endpoint,
      parts.text = Text.trim endpoint.toList ∧ String.ofList parts.service.region = region ∧
        ∀ other : Endpoint, other.text = Text.trim endpoint.toList →
          other.labels.length ≤ parts.labels.length) ∧
    ∀ scheme bucket host : String, (scheme = "" ∨ scheme = "http://" ∨ scheme = "https://") →
      endpoint = scheme ++ host → (∀ other ∈ schemes, ¬ other <+: host.toList) →
      (∀ char ∈ host.toList.head?, Text.isBlank char = false) → '/' ∉ bucket.toList →
      regionOf? endpoint = some region →
        regionOf? (scheme ++ bucket ++ "." ++ host) = some region := by
  constructor
  · rw [regionOf?, Option.map_eq_some_iff]
    constructor
    · rintro ⟨chars, found, rfl⟩
      obtain ⟨parts, text, rfl, longest⟩ := regionOfHost?_withoutScheme_eq_some_iff.mp found
      exact ⟨parts, text, rfl, longest⟩
    · rintro ⟨parts, text, rfl, longest⟩
      exact ⟨_, regionOfHost?_withoutScheme_eq_some_iff.mpr ⟨parts, text, rfl, longest⟩, rfl⟩
  · rintro scheme bucket host known rfl noScheme noBlank inside found
    exact regionOf?_bucket known noScheme noBlank inside found

/-- A bucket that looks like an endpoint of another region. -/
theorem regionOf?_follows_grammar_bucket :
    let host := "s3-dualstack.us-east-1.amazonaws.com/"
    let bucket := "s3.eu-west-1.amazonaws.com"
    regionOf? ("https://" ++ host) = some "us-east-1" ∧
      regionOf? ("https://" ++ bucket ++ "." ++ host) = some "us-east-1" := by
  intro host bucket
  have found : regionOf? ("https://" ++ host) = some "us-east-1" := by decide +kernel
  have begins : host.toList.head? = some 's' := by decide
  have noBlank : ∀ char ∈ host.toList.head?, Text.isBlank char = false := by
    intro char first
    obtain rfl := Option.some.inj (begins.symm.trans first)
    decide
  exact ⟨found, (regionOf?_follows_grammar _ _).2 "https://" bucket host (.inr (.inr rfl)) rfl
    (by decide) noBlank (by decide) found⟩

end S3

end ConnectorSettings
