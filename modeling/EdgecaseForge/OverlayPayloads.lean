import EdgecaseForge.Overlays

namespace EdgecaseForge

open Text Effect Binary64 Statistics

section Decisions

theorem verdict_text_inj {a b : Verdict} (h : a.text = b.text) : a = b := by
  cases a <;> cases b <;> first | rfl | (simp [Verdict.text] at h)

/-- A recorded decision is determined by its payload. -/
theorem caseDecision_payload_inj {a b : CaseDecision}
    (h : a.payload.matchesEntry b.payload = true) : a = b := by
  have same : a.payload.pyEq b.payload = true := h
  have values := Json.values_of_pyEq same rfl (by simp)
  simp only [List.forall₂_cons, List.Forall₂.nil, and_true] at values
  obtain ⟨repetition, caseId, test, differential, decision, -, reason⟩ := values
  obtain ⟨r, c, t, d, v, s⟩ := a
  obtain ⟨r', c', t', d', v', s'⟩ := b
  have hr : r = r' := Int.ofNat_inj.mp (Json.matchesEntry_int repetition)
  have hc := Json.str.inj (Json.matchesEntry_str caseId)
  have ht := Sha256.Digest.ext (Json.str.inj (Json.matchesEntry_str test))
  have hd := Sha256.Digest.ext (Json.str.inj (Json.matchesEntry_str differential))
  have hv := verdict_text_inj (Json.str.inj (Json.matchesEntry_str decision))
  have hs := Json.str.inj (Json.matchesEntry_str reason)
  simp only at hr hc ht hd hv hs
  subst hr hc ht hd hv hs
  rfl

theorem caseDecisions_payload_inj {xs ys : List CaseDecision}
    (h : List.Forall₂ (fun x y => x.matchesEntry y = true) (xs.map CaseDecision.payload)
      (ys.map CaseDecision.payload)) : xs = ys := by
  rw [List.forall₂_map_left_iff, List.forall₂_map_right_iff] at h
  exact List.forall₂_eq_eq_eq ▸ h.imp fun _ _ => caseDecision_payload_inj

/-- An adjudication is determined by its payload. -/
theorem suiteAdjudication_payload_inj {a b : SuiteAdjudication}
    (h : a.payload.pyEq b.payload = true) : a = b := by
  have values := Json.values_of_pyEq h rfl (by simp)
  simp only [List.forall₂_cons, List.Forall₂.nil, and_true] at values
  obtain ⟨-, suiteId, fingerprint, reviewer, policy, config, progress, summary, decisions, -, list⟩ :=
    values
  obtain ⟨i, f, r, p, ⟨c, g, s, d⟩, l⟩ := a
  obtain ⟨i', f', r', p', ⟨c', g', s', d'⟩, l'⟩ := b
  have hi := Json.str.inj (Json.matchesEntry_str suiteId)
  have hf := Sha256.Digest.ext (Json.str.inj (Json.matchesEntry_str fingerprint))
  have hr := Json.str.inj (Json.matchesEntry_str reviewer)
  have hp := Json.str.inj (Json.matchesEntry_str policy)
  have hc := Json.str.inj (Json.matchesEntry_str config)
  have hg := Json.str.inj (Json.matchesEntry_str progress)
  have hs := Json.str.inj (Json.matchesEntry_str summary)
  have hd := Json.str.inj (Json.matchesEntry_str decisions)
  have hl := caseDecisions_payload_inj (Json.matchesEntry_list list)
  simp only at hi hf hr hp hc hg hs hd hl
  subst hi hf hr hp hc hg hs hd hl
  rfl

theorem caseDecision_payload_distinct (decision : CaseDecision) :
    decision.payload.distinct = true :=
  Json.distinct_object (by simp) (by simp)

theorem suiteAdjudication_payload_distinct (adjudication : SuiteAdjudication) :
    adjudication.payload.distinct = true := by
  have decisions := Json.distinct_map caseDecision_payload_distinct adjudication.decisions
  exact Json.distinct_object (by simp) (by simp [decisions])

/-- The number of decisions with a verdict in an adjudication that was read. -/
def decisionsOf (adjudication : Json) (verdict : Verdict) : Nat :=
  match adjudication.get (lit "decisions") with
  | .list items =>
    (items.filter fun item => (item.get (lit "decision")).pyEq (.str verdict.text)).length
  | _ => 0

theorem decisionsOf_payload (adjudication : SuiteAdjudication) (verdict : Verdict) :
    decisionsOf adjudication.payload verdict =
      (adjudication.decisions.filter fun d => d.decision = verdict).length := by
  have same : ∀ d : CaseDecision, ((d.payload.get (lit "decision")).pyEq (.str verdict.text)) =
      decide (d.decision = verdict) := by
    intro d
    have read : d.payload.get (lit "decision") = .str d.decision.text := by
      simp [CaseDecision.payload, List.lookup_cons]
    rw [read, Json.pyEq, Bool.eq_iff_iff, beq_iff_eq, decide_eq_true_iff]
    exact ⟨verdict_text_inj, congrArg _⟩
  have list : adjudication.payload.get (lit "decisions") =
      .list (adjudication.decisions.map CaseDecision.payload) := by
    simp [SuiteAdjudication.payload, List.lookup_cons]
  simp only [decisionsOf, list, List.filter_map, List.length_map]
  congr 2
  funext d
  exact same d

end Decisions

section Hashes

variable {suiteDir decisionsPath : Path} {t : FileTree} {config progress summary decisions : Bytes}

/-- The hashes are texts. -/
structure SourceHashes.Unicode (sources : SourceHashes) : Prop where
  config : isUnicode sources.config = true
  progress : isUnicode sources.progress = true
  summary : isUnicode sources.summary = true
  decisions : isUnicode sources.decisions = true

theorem sourceHashes_total (h : t.get? (configPath suiteDir) = some (.file config))
    (h' : t.get? (progressPath suiteDir) = some (.file progress))
    (h'' : t.get? (summaryPath suiteDir) = some (.file summary))
    (hd : t.get? decisionsPath = some (.file decisions)) : ∃ sources, sources.Unicode ∧
      sourceHashes suiteDir decisionsPath t = .ok sources := by
  refine ⟨⟨Sha256.sha256 config, Sha256.sha256 progress, Sha256.sha256 summary, Sha256.sha256 decisions⟩, ?_, ?_⟩
  · exact ⟨Sha256.sha256_isUnicode _, Sha256.sha256_isUnicode _, Sha256.sha256_isUnicode _,
      Sha256.sha256_isUnicode _⟩
  · simp only [sourceHashes, fileSha256, FileTree.readBytes, h, h', h'', hd]
    rfl

/-- Other hashes make another adjudication, which has a text if the first one does. -/
theorem suiteAdjudication_payload_rehash {adjudication : SuiteAdjudication} {sources : SourceHashes}
    (unicode : sources.Unicode) (h : adjudication.payload.encodable = true) :
    { adjudication with sources }.payload.encodable = true := by
  obtain ⟨config, progress, summary, decisions⟩ := unicode
  simp only [SuiteAdjudication.payload, Json.encodable_object, List.map_cons, List.forall_mem_cons,
    Json.encodable_str] at h ⊢
  simp only [config, progress, summary, decisions, true_and]
  grind

end Hashes

section Summaries

variable {review : Review} {sha256 : Str} {summary value entry : Json} {key : String}

theorem subscript_ok (h : subscript value key = .ok entry) : value.get? (lit key) = some entry := by
  unfold subscript at h
  split at h
  next fields =>
    split at h
    next found hf =>
      cases h
      exact hf
    next => cases h
  next => cases h

/-- What holds of a value holds of what is in it. -/
structure Inherited (P : Json → Prop) : Prop where
  list : ∀ {items}, P (.list items) ↔ ∀ item ∈ items, P item
  value : ∀ {fields field}, P (.obj fields) → field ∈ fields → P field.2
  key : ∀ {fields field}, P (.obj fields) → field ∈ fields → P (.str field.1)
  character : ∀ {s c}, P (.str s) → c ∈ s → P (.str [c])

theorem inherited_distinct : Inherited fun value => value.distinct = true where
  list := Json.distinctItems_eq_true
  value h hf := Json.distinctFields_eq_true.mp (Bool.and_eq_true_iff.mp h).2 _ hf
  key _ _ := Json.distinct_str _
  character _ _ := Json.distinct_str _

theorem inherited_encodable : Inherited fun value => value.encodable = true where
  list := Json.encodable_list
  value h hf := (Json.encodable_obj.mp h _ hf).2
  key h hf := Json.encodable_str.trans (Json.encodable_obj.mp h _ hf).1
  character h hc := by
    rw [Json.encodable_str] at h ⊢
    exact List.all_eq_true.mpr (List.forall_mem_singleton.mpr (List.all_eq_true.mp h _ hc))

section Inherited

variable {P : Json → Prop} {name : Str}

theorem Inherited.get? (hP : Inherited P) (h : P value) (found : value.get? name = some entry) : P entry := by
  cases value with
  | obj fields =>
    obtain ⟨l, r, split, -⟩ := List.lookup_eq_some_iff.mp found
    have there : (name, entry) ∈ fields := split ▸ by simp
    exact hP.value h there
  | _ => cases found

theorem Inherited.subscript (hP : Inherited P) (h : P value) (found : subscript value key = .ok entry) :
    P entry :=
  hP.get? h (subscript_ok found)

theorem Inherited.iterate {items : List Json} (hP : Inherited P) (h : P value)
    (through : iterate value = .ok items) : ∀ item ∈ items, P item := by
  cases value with
  | list xs =>
    cases through
    exact hP.list.mp h
  | str s =>
    cases through
    intro item hi
    obtain ⟨c, hc, rfl⟩ := List.mem_map.mp hi
    exact hP.character h hc
  | obj fields =>
    cases through
    intro item hi
    obtain ⟨field, hf, rfl⟩ := List.mem_map.mp hi
    exact hP.key h hf
  | _ => cases through

theorem dictGet_ok {fallback : Json} (h : dictGet value key fallback = .ok entry) :
    entry = (value.get? (lit key)).getD fallback := by
  cases value with
  | obj fields => exact (Except.ok.inj h).symm
  | _ => cases h

theorem Inherited.remainingBlockers {blockers : List Json} (hP : Inherited P) (h : P value)
    (left : remainingBlockers value = .ok blockers) : ∀ blocker ∈ blockers, P blocker := by
  obtain ⟨named, got, left⟩ := Except.bind_eq_ok.mp left
  obtain ⟨items, through, left⟩ := Except.bind_eq_ok.mp left
  cases left
  have held : P named := by
    rw [dictGet_ok got]
    cases hl : value.get? (lit "official_score_blockers") with
    | none => exact hP.list.mpr (List.forall_mem_nil _)
    | some entry => exact hP.get? h hl
  exact fun blocker hb => hP.iterate held through blocker (List.mem_of_mem_filter hb)

end Inherited

/-- What a summary gathers from its review. -/
structure SummaryParts where
  scores : ConfirmedScores Double
  blockers : List Json
  suiteId : Json
  benchmarkVersion : Json
  provider : Json
  model : Json
  candidateKills : Json
  candidateScore : Json
  claims : Json
  failures : Json
  modelErrors : Json
  invalidTests : Json
  infrastructure : Json

namespace SummaryParts

structure Of (review : Review) (parts : SummaryParts) : Prop where
  scores : confirmedScores floats review.suite.config.repetitions review.suite.config.selectedCases
    review.adjudication.decisions = .ok parts.scores
  blockers : remainingBlockers review.suite.rawSummary = .ok parts.blockers
  suiteId : subscript review.suite.config.config "suite_id" = .ok parts.suiteId
  benchmarkVersion : subscript review.suite.rawSummary "benchmark_version" = .ok parts.benchmarkVersion
  provider : subscript review.suite.rawSummary "provider" = .ok parts.provider
  model : subscript review.suite.rawSummary "model" = .ok parts.model
  candidateKills : subscript review.suite.rawSummary "candidate_kills" = .ok parts.candidateKills
  candidateScore : subscript review.suite.rawSummary "candidate_mutation_score" = .ok parts.candidateScore
  claims : subscript review.suite.rawSummary "clean_control_claims_reported" = .ok parts.claims
  failures : subscript review.suite.rawSummary "evaluations_with_clean_assertion_failures" = .ok parts.failures
  modelErrors : subscript review.suite.rawSummary "model_output_errors" = .ok parts.modelErrors
  invalidTests : subscript review.suite.rawSummary "invalid_generated_tests" = .ok parts.invalidTests
  infrastructure : subscript review.suite.rawSummary "evaluator_infrastructure_errors" = .ok parts.infrastructure

def entries (parts : SummaryParts) (review : Review) (sha256 : Str) : List (String × Json) :=
  [("schema_version", .str (lit "adjudicated-summary-v1")), ("suite_id", parts.suiteId),
    ("suite_fingerprint_sha256", .str review.suite.config.fingerprint),
    ("benchmark_version", parts.benchmarkVersion), ("provider", parts.provider), ("model", parts.model),
    ("repetitions", .int review.suite.config.repetitions),
    ("selected_cases", texts review.suite.config.selectedCases),
    ("source_summary_sha256", .str review.adjudication.sources.summary),
    ("adjudication_sha256", .str sha256),
    ("official_score_eligible", .bool parts.blockers.isEmpty),
    ("official_score_blockers", .list parts.blockers),
    ("candidate_kills", parts.candidateKills), ("candidate_mutation_score", parts.candidateScore),
    ("confirmed_kills", .int parts.scores.confirmed),
    ("rejected_candidate_kills", .int parts.scores.rejected),
    ("confirmed_mutation_score", medianJson parts.scores.spread),
    ("confirmed_mutation_score_range", rangeJson parts.scores.spread),
    ("repetition_scores", .list (parts.scores.repetitionScores.map ConfirmedScore.payload)),
    ("clean_control_claims_reported", parts.claims),
    ("evaluations_with_clean_assertion_failures", parts.failures),
    ("model_output_errors", parts.modelErrors), ("invalid_generated_tests", parts.invalidTests),
    ("evaluator_infrastructure_errors", parts.infrastructure),
    ("decisions", .list (review.adjudication.decisions.map CaseDecision.payload)),
    ("note", .str (lit
      "Confirmed score is an immutable overlay; raw suite evidence is unchanged."))] ++
    ((review.suite.rawSummary.get? (lit "agent")).map fun agent => ("agent", agent)).toList

/-- What a summary says of its own. -/
structure Own (P : Json → Prop) (review : Review) (parts : SummaryParts) (sha256 : Str) : Prop where
  version : P (.str (lit "adjudicated-summary-v1"))
  fingerprint : P (.str review.suite.config.fingerprint)
  repetitions : P (.int review.suite.config.repetitions)
  cases_ : ∀ ident ∈ review.suite.config.selectedCases, P (.str ident)
  source : P (.str review.adjudication.sources.summary)
  sha256 : P (.str sha256)
  eligible : P (.bool parts.blockers.isEmpty)
  confirmed : P (.int parts.scores.confirmed)
  rejected : P (.int parts.scores.rejected)
  median : P (medianJson parts.scores.spread)
  range : P (rangeJson parts.scores.spread)
  listed : ∀ score ∈ parts.scores.repetitionScores, P score.payload
  decisions : ∀ decision ∈ review.adjudication.decisions, P decision.payload
  note : P (.str (lit "Confirmed score is an immutable overlay; raw suite evidence is unchanged."))

theorem Of.entries {P : Json → Prop} {parts : SummaryParts} (of : parts.Of review) (hP : Inherited P)
    (hc : P review.suite.config.config) (hr : P review.suite.rawSummary) (own : parts.Own P review sha256) :
    ∀ field ∈ parts.entries review sha256, P field.2 := by
  have raw : ∀ {key : String} {entry : Json}, EdgecaseForge.subscript review.suite.rawSummary key = .ok entry → P entry :=
    hP.subscript hr
  have cases_ : P (texts review.suite.config.selectedCases) :=
    hP.list.mpr (List.forall_mem_map.mpr own.cases_)
  have agent : ∀ field ∈ ((review.suite.rawSummary.get? (lit "agent")).map fun agent => ("agent", agent)).toList,
      P field.2 := by
    intro field hf
    obtain ⟨entry, found, rfl⟩ := Option.map_eq_some_iff.mp (Option.mem_toList.mp hf)
    exact hP.get? hr found
  simp only [SummaryParts.entries, List.forall_mem_append, List.forall_mem_cons]
  exact ⟨⟨own.version, hP.subscript hc of.suiteId, own.fingerprint, raw of.benchmarkVersion, raw of.provider,
    raw of.model, own.repetitions, cases_, own.source, own.sha256, own.eligible,
    hP.list.mpr (hP.remainingBlockers hr of.blockers), raw of.candidateKills, raw of.candidateScore,
    own.confirmed, own.rejected, own.median, own.range, hP.list.mpr (List.forall_mem_map.mpr own.listed),
    raw of.claims, raw of.failures, raw of.modelErrors, raw of.invalidTests, raw of.infrastructure,
    hP.list.mpr (List.forall_mem_map.mpr own.decisions), own.note, List.forall_mem_nil _⟩, agent⟩

end SummaryParts

/-- A summary is built of its parts, if they are there. -/
theorem buildAdjudicatedSummary_eq_ok : buildAdjudicatedSummary review sha256 = .ok summary ↔
    ∃ parts : SummaryParts, parts.Of review ∧ summary = .object (parts.entries review sha256) := by
  constructor
  · intro h
    obtain ⟨scores, h₁, h⟩ := Except.bind_eq_ok.mp h
    obtain ⟨blockers, h₂, h⟩ := Except.bind_eq_ok.mp h
    obtain ⟨suiteId, h₃, h⟩ := Except.bind_eq_ok.mp h
    obtain ⟨benchmarkVersion, h₄, h⟩ := Except.bind_eq_ok.mp h
    obtain ⟨provider, h₅, h⟩ := Except.bind_eq_ok.mp h
    obtain ⟨model, h₆, h⟩ := Except.bind_eq_ok.mp h
    obtain ⟨candidateKills, h₇, h⟩ := Except.bind_eq_ok.mp h
    obtain ⟨candidateScore, h₈, h⟩ := Except.bind_eq_ok.mp h
    obtain ⟨claims, h₉, h⟩ := Except.bind_eq_ok.mp h
    obtain ⟨failures, h₁₀, h⟩ := Except.bind_eq_ok.mp h
    obtain ⟨modelErrors, h₁₁, h⟩ := Except.bind_eq_ok.mp h
    obtain ⟨invalidTests, h₁₂, h⟩ := Except.bind_eq_ok.mp h
    obtain ⟨infrastructure, h₁₃, h⟩ := Except.bind_eq_ok.mp h
    exact ⟨⟨scores, blockers, suiteId, benchmarkVersion, provider, model, candidateKills, candidateScore, claims,
      failures, modelErrors, invalidTests, infrastructure⟩,
      ⟨h₁, h₂, h₃, h₄, h₅, h₆, h₇, h₈, h₉, h₁₀, h₁₁, h₁₂, h₁₃⟩, (Except.ok.inj h).symm⟩
  · rintro ⟨parts, of, rfl⟩
    rw [buildAdjudicatedSummary, of.scores, of.blockers, of.suiteId, of.benchmarkVersion, of.provider, of.model,
      of.candidateKills, of.candidateScore, of.claims, of.failures, of.modelErrors, of.invalidTests,
      of.infrastructure]
    rfl

/-- The fields of a suite summary that its overlay copies. -/
def copiedFields : List String :=
  ["benchmark_version", "provider", "model", "candidate_kills", "candidate_mutation_score",
    "clean_control_claims_reported", "evaluations_with_clean_assertion_failures", "model_output_errors",
    "invalid_generated_tests", "evaluator_infrastructure_errors"]

/-- What the summary of an adjudication needs of its suite. -/
structure Summarisable (review : Review) : Prop where
  scores : ∃ scores, confirmedScores floats review.suite.config.repetitions
    review.suite.config.selectedCases review.adjudication.decisions = .ok scores
  blockers : ∃ blockers, remainingBlockers review.suite.rawSummary = .ok blockers
  suiteId : (review.suite.config.config.get? (lit "suite_id")).isSome = true
  copied : ∀ name ∈ copiedFields, (review.suite.rawSummary.get? (lit name)).isSome = true

theorem subscript_isSome (h : (value.get? (lit key)).isSome = true) : ∃ entry, subscript value key = .ok entry := by
  obtain ⟨entry, found⟩ := Option.isSome_iff_exists.mp h
  cases value with
  | obj fields =>
    have looked : fields.lookup (lit key) = some entry := found
    exact ⟨entry, by rw [subscript, looked]⟩
  | _ => cases found

theorem isSome_of_subscript {entry : Json} (h : subscript value key = .ok entry) :
    (value.get? (lit key)).isSome = true := by
  rw [subscript_ok h]
  rfl

theorem buildAdjudicatedSummary_isOk :
    (∃ summary, buildAdjudicatedSummary review sha256 = .ok summary) ↔ Summarisable review := by
  constructor
  · rintro ⟨summary, h⟩
    obtain ⟨parts, of, -⟩ := buildAdjudicatedSummary_eq_ok.mp h
    refine ⟨⟨_, of.scores⟩, ⟨_, of.blockers⟩, isSome_of_subscript of.suiteId, ?_⟩
    simp only [copiedFields, List.forall_mem_cons]
    exact ⟨isSome_of_subscript of.benchmarkVersion, isSome_of_subscript of.provider, isSome_of_subscript of.model,
      isSome_of_subscript of.candidateKills, isSome_of_subscript of.candidateScore, isSome_of_subscript of.claims,
      isSome_of_subscript of.failures, isSome_of_subscript of.modelErrors, isSome_of_subscript of.invalidTests,
      isSome_of_subscript of.infrastructure, List.forall_mem_nil _⟩
  · rintro ⟨⟨scores, scored⟩, ⟨blockers, left⟩, named, copied⟩
    simp only [copiedFields, List.forall_mem_cons] at copied
    obtain ⟨version, provider, model, kills, score, claims, failures, modelErrors, invalidTests,
      infrastructure, -⟩ := copied
    obtain ⟨_, suiteId⟩ := subscript_isSome named
    obtain ⟨_, version⟩ := subscript_isSome version
    obtain ⟨_, provider⟩ := subscript_isSome provider
    obtain ⟨_, model⟩ := subscript_isSome model
    obtain ⟨_, kills⟩ := subscript_isSome kills
    obtain ⟨_, score⟩ := subscript_isSome score
    obtain ⟨_, claims⟩ := subscript_isSome claims
    obtain ⟨_, failures⟩ := subscript_isSome failures
    obtain ⟨_, modelErrors⟩ := subscript_isSome modelErrors
    obtain ⟨_, invalidTests⟩ := subscript_isSome invalidTests
    obtain ⟨_, infrastructure⟩ := subscript_isSome infrastructure
    have of : SummaryParts.Of review ⟨scores, blockers, _, _, _, _, _, _, _, _, _, _, _⟩ :=
      ⟨scored, left, suiteId, version, provider, model, kills, score, claims, failures, modelErrors, invalidTests,
        infrastructure⟩
    exact ⟨_, buildAdjudicatedSummary_eq_ok.mpr ⟨_, of, rfl⟩⟩

theorem buildAdjudicatedSummary_ok (h : buildAdjudicatedSummary review sha256 = .ok summary) :
    ∃ blockers, remainingBlockers review.suite.rawSummary = .ok blockers ∧
      summary.get? (lit "official_score_eligible") = some (.bool blockers.isEmpty) ∧
      summary.get? (lit "adjudication_sha256") = some (.str sha256) ∧
      summary.get? (lit "confirmed_kills") =
        some (.int (review.adjudication.decisions.filter CaseDecision.confirmedKill).length) ∧
      summary.get? (lit "rejected_candidate_kills") =
        some (.int ((review.adjudication.decisions.length -
          (review.adjudication.decisions.filter CaseDecision.confirmedKill).length : ℕ))) ∧
      summary.isObj = true ∧ summary.get? (lit "case_candidate_kill") = none := by
  obtain ⟨parts, of, rfl⟩ := buildAdjudicatedSummary_eq_ok.mp h
  have counts : parts.scores.confirmed =
      (review.adjudication.decisions.filter CaseDecision.confirmedKill).length ∧
      parts.scores.rejected = review.adjudication.decisions.length - parts.scores.confirmed := by
    obtain ⟨_, -, scored⟩ := Except.bind_eq_ok.mp of.scores
    obtain ⟨_, -, scored⟩ := Except.bind_eq_ok.mp scored
    rw [← Except.ok.inj scored]
    exact ⟨rfl, rfl⟩
  refine ⟨parts.blockers, of.blockers, ?_, ?_, ?_, ?_, rfl, ?_⟩
  case refine_5 =>
    cases review.suite.rawSummary.get? (lit "agent") <;> simp [SummaryParts.entries, List.lookup_cons]
  all_goals simp [SummaryParts.entries, List.lookup_cons, counts]

theorem floatOrNull_distinct (x : Option Double) : (floatOrNull x).distinct = true := by
  cases x <;> rfl

theorem rangeJson_distinct (spread : Option (Spread Double)) :
    (rangeJson spread).distinct = true := by
  cases spread <;> rfl

theorem confirmedScore_payload_distinct (score : ConfirmedScore Double) :
    score.payload.distinct = true := by
  have value := floatOrNull_distinct score.score
  exact Json.distinct_object (by simp) (by simp [value])

/-- The summary has each key once, as the values that it takes over do. -/
theorem buildAdjudicatedSummary_distinct (hc : review.suite.config.config.distinct = true)
    (hr : review.suite.rawSummary.distinct = true)
    (h : buildAdjudicatedSummary review sha256 = .ok summary) : summary.distinct = true := by
  obtain ⟨parts, of, rfl⟩ := buildAdjudicatedSummary_eq_ok.mp h
  refine Json.distinct_object ?_ (of.entries inherited_distinct hc hr ?_)
  · cases ha : review.suite.rawSummary.get? (lit "agent") <;> simp [SummaryParts.entries, ha]
  · exact ⟨rfl, rfl, rfl, fun _ _ => rfl, rfl, rfl, rfl, rfl, rfl, floatOrNull_distinct _, rangeJson_distinct _,
      fun score _ => confirmedScore_payload_distinct score,
      fun decision _ => caseDecision_payload_distinct decision, rfl⟩

/-- What a summary does not take over has a text. -/
structure SelfPrinted (review : Review) (sha256 : Str) : Prop where
  fingerprint : isUnicode review.suite.config.fingerprint = true
  repetitions : (Json.int review.suite.config.repetitions).encodable = true
  cases_ : ∀ ident ∈ review.suite.config.selectedCases, isUnicode ident = true
  source : isUnicode review.adjudication.sources.summary = true
  sha256 : isUnicode sha256 = true
  decisions : ∀ decision ∈ review.adjudication.decisions, decision.payload.encodable = true
  scores : ∀ scores, confirmedScores floats review.suite.config.repetitions review.suite.config.selectedCases
    review.adjudication.decisions = .ok scores →
      (Json.int scores.confirmed).encodable = true ∧ (Json.int scores.rejected).encodable = true ∧
        ∀ score ∈ scores.repetitionScores, score.payload.encodable = true

theorem floatOrNull_encodable (x : Option Double) : (floatOrNull x).encodable = true := by
  cases x <;> rfl

theorem rangeJson_encodable (spread : Option (Spread Double)) : (rangeJson spread).encodable = true := by
  cases spread <;> rfl

theorem buildAdjudicatedSummary_encodable (hc : review.suite.config.config.encodable = true)
    (hr : review.suite.rawSummary.encodable = true) (printed : SelfPrinted review sha256)
    (h : buildAdjudicatedSummary review sha256 = .ok summary) : summary.encodable = true := by
  obtain ⟨parts, of, rfl⟩ := buildAdjudicatedSummary_eq_ok.mp h
  obtain ⟨confirmed, rejected, listed⟩ := printed.scores parts.scores of.scores
  rw [Json.encodable_object, List.forall_mem_map]
  refine of.entries inherited_encodable hc hr ?_
  exact ⟨Json.encodable_str.trans (isUnicode_lit _), Json.encodable_str.trans printed.fingerprint,
    printed.repetitions, fun ident hi => Json.encodable_str.trans (printed.cases_ ident hi),
    Json.encodable_str.trans printed.source, Json.encodable_str.trans printed.sha256, rfl, confirmed, rejected,
    floatOrNull_encodable _, rangeJson_encodable _, listed, printed.decisions,
    Json.encodable_str.trans (isUnicode_lit _)⟩

end Summaries

end EdgecaseForge
