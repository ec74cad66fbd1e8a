import EdgecaseForge.RetryOracle

namespace EdgecaseForge

open Text

namespace RetryOracle

/-- The nodes of a function in the order of their lines. -/
def inOrder (function : Ast) : List Ast :=
  function.walk.insertionSort fun a b => a.line ≤ b.line

/-- The variables that a node assigns an HTTP response to. -/
def responseVariables (py : PythonSource) (node : Ast) : List Str :=
  (responseTargets py node).map Prod.snd

def assignsResponse (py : PythonSource) (node : Ast) : Bool :=
  !(responseVariables py node).isEmpty

def assignsTo (ident : Str) : Ast → Bool
  | .assign _ targets _ => targets.any fun target => (nameTarget 0 target).any (·.2 = ident)
  | _ => false

def readsStatus (ident : Str) : Ast → Bool
  | .attribute _ _ attr (.name _ id) => attr = lit "status_code" && id = ident
  | _ => false

/-- An assertion that reads the status code of a variable. -/
def assertsStatus (ident : Str) : Ast → Bool
  | .assert _ test _ => test.walk.any (readsStatus ident)
  | _ => false

/-- An assertion whose text has a word of the ledger. -/
def assertsLedger (py : PythonSource) : Ast → Bool
  | .assert _ test _ => mentionsLedger (py.lower (unparse test))
  | _ => false

/-- An assertion whose text has the name and the status code in it, wherever they stand. -/
def assertsMention (py : PythonSource) (retryName : Str) : Ast → Bool
  | .assert _ test _ => mentionsStatus (py.lower retryName) (py.lower (unparse test))
  | _ => false

/-- A ledger assertion comes after the second HTTP response that is assigned, and no assertion between
them reads the status of that response. -/
structure WellOrdered (py : PythonSource) (function : Ast) (before : List Ast) (retry : Ast)
    (between : List Ast) (ledger : Ast) (after : List Ast) : Prop where
  order : inOrder function = before ++ retry :: (between ++ ledger :: after)
  first : (before.filter (assignsResponse py)).length = 1
  second : assignsResponse py retry = true
  asserted : assertsLedger py ledger = true
  status : ∀ ident ∈ responseVariables py retry, ∀ earlier node later,
    between = earlier ++ node :: later → assertsStatus ident node = true →
      ∃ again ∈ earlier, assignsTo ident again = true

/-- There are two different response variables, and no assertion above all ledger assertions has the
name of the second one and the status code in its text. -/
def NamesApart (py : PythonSource) (function : Ast) (earlier : List Ast) : Prop :=
  ∃ retryName, (responseNames py function)[1]? = some retryName ∧
    ∀ node ∈ earlier, assertsMention py retryName node = true →
      ∃ line ∈ ledgerLines py function, line ≤ node.line

section Lines

variable {py : PythonSource} {function : Ast} {line : Nat} {retryName : Str}

theorem mem_assertions {entry : Nat × Str} : entry ∈ assertions py function ↔
    ∃ o test message, .assert o test message ∈ function.walk ∧
      entry = (o.line, py.lower (unparse test)) := by
  rw [assertions, List.mem_insertionSort, List.mem_flatMap]
  constructor
  · rintro ⟨node, hn, h⟩
    cases node
    case assert o test message => exact ⟨o, test, message, hn, List.mem_singleton.mp h⟩
    all_goals cases h
  · rintro ⟨o, test, message, hn, rfl⟩
    exact ⟨_, hn, .head _⟩

/-- The lines of the assertions that a test on their text picks. -/
theorem mem_assertion_lines (picks : Str → Bool) (node : Ast → Bool)
    (hp : ∀ o test message, node (.assert o test message) = picks (py.lower (unparse test)))
    (ho : ∀ other, node other = true → ∃ o test message, other = .assert o test message) :
    line ∈ ((assertions py function).filter fun a => picks a.2).map Prod.fst ↔
      ∃ a ∈ function.walk, node a = true ∧ a.line = line := by
  simp only [List.mem_map, List.mem_filter, mem_assertions]
  constructor
  · rintro ⟨entry, ⟨⟨o, test, message, hn, rfl⟩, picked⟩, rfl⟩
    exact ⟨_, hn, (hp o test message).trans picked, rfl⟩
  · rintro ⟨a, hn, picked, rfl⟩
    obtain ⟨o, test, message, rfl⟩ := ho a picked
    exact ⟨_, ⟨⟨o, test, message, hn, rfl⟩, (hp o test message).symm.trans picked⟩, rfl⟩

theorem mem_ledgerLines :
    line ∈ ledgerLines py function ↔ ∃ a ∈ function.walk, assertsLedger py a = true ∧ a.line = line := by
  refine mem_assertion_lines mentionsLedger _ (fun _ _ _ => rfl) fun other picked => ?_
  cases other
  case assert o test message => exact ⟨o, test, message, rfl⟩
  all_goals cases picked

theorem mem_retryStatusLines : line ∈ retryStatusLines py function retryName ↔
    ∃ a ∈ function.walk, assertsMention py retryName a = true ∧ a.line = line := by
  refine mem_assertion_lines (mentionsStatus (py.lower retryName)) _ (fun _ _ _ => rfl)
    fun other picked => ?_
  cases other
  case assert o test message => exact ⟨o, test, message, rfl⟩
  all_goals cases picked

theorem mem_inOrder {node : Ast} : node ∈ inOrder function ↔ node ∈ function.walk :=
  List.mem_insertionSort _

theorem inOrder_sorted (function : Ast) : (inOrder function).Pairwise fun a b => a.line ≤ b.line :=
  List.pairwise_insertionSort _ _

end Lines

section Verdict

variable {py : PythonSource} {code testName : Str} {body : List Ast} {function : Ast}

/-- The verdict on a named test: a second name, a ledger assertion, and none of the status above it. -/
theorem validate_iff (hp : py.parse code = .ok body) (hf : body.find? (isNamed testName) = some function) :
    validate py code testName = .ok () ↔
      ∃ retryName, (responseNames py function)[1]? = some retryName ∧
        ∃ firstLedger ∈ ledgerLines py function,
          ∀ line ∈ retryStatusLines py function retryName, firstLedger ≤ line := by
  constructor
  · intro h
    obtain ⟨body', function', retryName, firstLedger, hp', hf', second, ledger, least⟩ :=
      validate_accepted h
    cases hp.symm.trans hp'
    cases hf.symm.trans hf'
    exact ⟨retryName, second, firstLedger, ledger, least⟩
  · rintro ⟨retryName, second, ledger, mem, least⟩
    unfold validate
    rw [hp]
    dsimp only
    rw [hf]
    dsimp only
    split
    next name other rest hn =>
      rw [hn] at second
      cases second
      split
      next none =>
        rw [List.min?_eq_none_iff.mp none] at mem
        cases mem
      next firstLedger hl =>
        have below := (List.min?_eq_some_iff.mp hl).2 ledger mem
        split
        next firstStatus hs =>
          have later := least firstStatus (List.min?_mem hs)
          rw [if_neg (by omega)]
        next => rfl
    next short =>
      obtain ⟨hlt, rfl⟩ := List.getElem?_eq_some_iff.mp second
      match hn : responseNames py function with
      | [] =>
        rw [hn] at hlt
        cases hlt
      | [_] =>
        rw [hn] at hlt
        simp at hlt
      | first :: retryName :: rest => exact absurd hn (short first retryName rest)

end Verdict

/-- A well-ordered test is accepted exactly when its response variables have two names, and the second
one is not mentioned with the status code above the ledger. -/
theorem validate_wellOrdered {py : PythonSource} {code testName : Str} {body before between after : List Ast}
    {function retry ledger : Ast} (hp : py.parse code = .ok body)
    (hf : body.find? (isNamed testName) = some function)
    (h : WellOrdered py function before retry between ledger after) :
    validate py code testName = .ok () ↔ NamesApart py function (before ++ between) := by
  have mem : ∀ node, node ∈ function.walk ↔ node ∈ before ++ retry :: (between ++ ledger :: after) :=
    fun node => by rw [← h.order, mem_inOrder]
  rw [validate_iff hp hf, NamesApart]
  constructor
  · rintro ⟨retryName, second, firstLedger, hl, least⟩
    refine ⟨retryName, second, fun node hn mention => ⟨firstLedger, hl, least _ ?_⟩⟩
    refine mem_retryStatusLines.mpr ⟨node, (mem node).mpr ?_, mention, rfl⟩
    simp only [List.mem_append, List.mem_cons] at hn ⊢
    exact hn.imp_right fun hb => .inr (.inl hb)
  · rintro ⟨retryName, second, apart⟩
    have found : ledger.line ∈ ledgerLines py function :=
      mem_ledgerLines.mpr ⟨ledger, (mem ledger).mpr (by simp), h.asserted, rfl⟩
    have above : ∀ line ∈ retryStatusLines py function retryName,
        ∃ firstLedger ∈ ledgerLines py function, firstLedger ≤ line := by
      intro line hl
      obtain ⟨node, hn, mention, rfl⟩ := mem_retryStatusLines.mp hl
      have place := (mem node).mp hn
      simp only [List.mem_append, List.mem_cons] at place
      obtain place | rfl | place | rfl | place := place
      · exact apart node (List.mem_append_left _ place) mention
      · have assigned := h.second
        cases node
        case assert => cases assigned
        all_goals cases mention
      · exact apart node (List.mem_append_right _ place) mention
      · exact ⟨node.line, found, Nat.le_refl _⟩
      · have sorted := inOrder_sorted function
        rw [h.order] at sorted
        have rest := (List.pairwise_cons.mp (List.pairwise_append.mp sorted).2.1).2
        have last := (List.pairwise_append.mp rest).2.1
        exact ⟨ledger.line, found, (List.pairwise_cons.mp last).1 node place⟩
    cases hm : (ledgerLines py function).min? with
    | none =>
      rw [List.min?_eq_none_iff.mp hm] at found
      cases found
    | some firstLedger =>
      refine ⟨retryName, second, firstLedger, List.min?_mem hm, fun line hl => ?_⟩
      obtain ⟨other, ho, below⟩ := above line hl
      have := (List.min?_eq_some_iff.mp hm).2 other ho
      omega

section Names

def assertingStatus (line : Nat) (response : String) : Ast :=
  .assert (onLine line "")
    (.other (onLine line (response ++ ".status_code == 201"))
      [.attribute (onLine line "") .load (lit "status_code") (.name (onLine line "") (lit response)),
        .constant (onLine line "") none]) []

def assertingCharges (line : Nat) : Ast :=
  asserting line "len(STATE.payment.charges) == 1"

/-- Two requests, a look at the status of the first one, and the ledger assertion. -/
def repeatedBody (first retry : String) : List Ast :=
  [postTo 2 first, postTo 3 retry, assertingStatus 4 first, assertingCharges 5]

def repeatedCode (first retry : String) : Str := lit
  ("def test_retry():\n    " ++ first ++ " = client.post('/orders')\n    " ++ retry ++
    " = client.post('/orders')\n    assert " ++ first ++
    ".status_code == 201\n    assert len(STATE.payment.charges) == 1")

def repeatedSource (first retry : String) : PythonSource :=
  parsing (repeatedCode first retry) (repeatedBody first retry)

/-- Two requests into one variable, the ledger assertion, and the status. -/
def singleBody : List Ast :=
  [postTo 2 "response", postTo 3 "response", assertingCharges 4, assertingStatus 5 "response"]

def singleCode : Str := lit
  "def test_retry():\n    response = client.post('/orders')\n    response = client.post('/orders')\n    assert len(STATE.payment.charges) == 1\n    assert response.status_code == 201"

def singleSource : PythonSource :=
  parsing singleCode singleBody

theorem parsing_parse (code : Str) (body : List Ast) :
    (parsing code body).parse code = .ok [retryTest body] :=
  if_pos rfl

theorem retryTest_named (body : List Ast) :
    [retryTest body].find? (isNamed (lit "test_retry")) = some (retryTest body) :=
  List.find?_cons_of_pos (beq_self_eq_true _)

/-- What stands between the two requests and the ledger assertion may read no status of the second. -/
theorem wellOrdered_of_quiet {py : PythonSource} {function retry ledger : Ast} {before between after : List Ast}
    (order : inOrder function = before ++ retry :: (between ++ ledger :: after))
    (first : (before.filter (assignsResponse py)).length = 1) (second : assignsResponse py retry = true)
    (asserted : assertsLedger py ledger = true)
    (quiet : ((responseVariables py retry).all fun ident =>
      between.all fun node => !assertsStatus ident node) = true) :
    WellOrdered py function before retry between ledger after where
  order
  first
  second
  asserted
  status ident hi earlier node later hs reads := by
    have silent := List.all_eq_true.mp (List.all_eq_true.mp quiet ident hi) node
      (hs ▸ List.mem_append_right earlier (.head later))
    simp [reads] at silent

theorem repeatedSource_wellOrdered : WellOrdered (repeatedSource "first" "s")
    (retryTest (repeatedBody "first" "s")) (retryTest (repeatedBody "first" "s") :: (postTo 2 "first").walk)
    (postTo 3 "s") ((postTo 3 "s").walk.tail ++ (assertingStatus 4 "first").walk) (assertingCharges 5)
    (assertingCharges 5).walk.tail :=
  wellOrdered_of_quiet rfl (by decide) (by decide) (by decide) (by decide)

theorem singleSource_wellOrdered : WellOrdered singleSource (retryTest singleBody)
    (retryTest singleBody :: (postTo 2 "response").walk) (postTo 3 "response") (postTo 3 "response").walk.tail
    (assertingCharges 4) ((assertingCharges 4).walk.tail ++ (assertingStatus 5 "response").walk) :=
  wellOrdered_of_quiet rfl (by decide) (by decide) (by decide) (by decide)

/-- A well-ordered test whose second response is called `s` is refused, as the text of an assertion on the
first one has that letter; called `second`, it is accepted. With one variable for both, it is refused. -/
theorem validate_named :
    (∃ before retry between ledger after, WellOrdered (repeatedSource "first" "s")
        (retryTest (repeatedBody "first" "s")) before retry between ledger after) ∧
      (validate (repeatedSource "first" "s") (repeatedCode "first" "s") (lit "test_retry")).isOk = false ∧
      (validate (repeatedSource "first" "second") (repeatedCode "first" "second")
        (lit "test_retry")).isOk = true ∧
      (∃ before retry between ledger after, WellOrdered singleSource (retryTest singleBody) before retry
        between ledger after) ∧
      (validate singleSource singleCode (lit "test_retry")).isOk = false :=
  ⟨⟨_, _, _, _, _, repeatedSource_wellOrdered⟩, by decide, by decide,
    ⟨_, _, _, _, _, singleSource_wellOrdered⟩, by decide +kernel⟩

theorem validate_wellOrdered_single :
    validate singleSource singleCode (lit "test_retry") = .ok () ↔ NamesApart singleSource
      (retryTest singleBody) (retryTest singleBody :: (postTo 2 "response").walk ++
        (postTo 3 "response").walk.tail) :=
  validate_wellOrdered (parsing_parse singleCode singleBody) (retryTest_named singleBody)
    singleSource_wellOrdered

end Names

end RetryOracle

end EdgecaseForge
