import Sanshain.Guarantees.Admissions
import Sanshain.Guarantees.SignInEvidence
import Sanshain.Text.Fields
import Sanshain.Text.Trim

namespace Sanshain.Guarantees

open Sanshain.Domain Sanshain.Effects Sanshain.Application Sanshain.Text

section Headers

/-- A cookie as a browser sends it: neither part has a blank or a semicolon, its name no equals sign. -/
structure CookieFormed (cookie : String × String) : Prop where
  name : ∀ c ∈ cookie.1.toList, isWhiteSpace c = false ∧ c ≠ ';' ∧ c ≠ '='
  value : ∀ c ∈ cookie.2.toList, isWhiteSpace c = false ∧ c ≠ ';'

def cookiePair (cookie : String × String) : List Char := cookie.1.toList ++ '=' :: cookie.2.toList

/-- The cookies one after another, with a blank behind each semicolon. -/
def cookiesAfter (lead : List Char) : List (String × String) → List Char
  | [] => lead
  | [cookie] => lead ++ cookiePair cookie
  | cookie :: rest => (lead ++ cookiePair cookie) ++ ';' :: cookiesAfter [' '] rest

/-- The header in which a browser sends its cookies. -/
def cookieHeader (cookies : List (String × String)) : String := String.ofList (cookiesAfter [] cookies)

variable {cookie : String × String} {lead : List Char}

theorem splitOnce_at {front : List Char} {separator : Char} (absent : separator ∉ front)
    (back : List Char) : splitOnce separator (front ++ separator :: back) = some (front, back) := by
  obtain ⟨-, nowhere⟩ | ⟨first, rest, split, free, same⟩ :=
    splitOnce_spec separator (front ++ separator :: back)
  · exact absurd (List.mem_append_right _ List.mem_cons_self) nowhere
  · have heads := splitChars_append absent back
    rw [same, splitChars_append free] at heads
    obtain ⟨rfl, -⟩ := List.cons_eq_cons.mp heads
    have tails := List.append_cancel_left same
    rw [split, (List.cons_eq_cons.mp tails).2]

theorem CookieFormed.solid (formed : CookieFormed cookie) :
    ∀ c ∈ cookiePair cookie, isWhiteSpace c = false ∧ c ≠ ';' := by
  intro c among
  obtain named | rest := List.mem_append.mp among
  · exact ⟨(formed.name c named).1, (formed.name c named).2.1⟩
  · obtain rfl | valued := List.mem_cons.mp rest
    · decide
    · exact formed.value c valued

/-- One cookie is read back, whatever blanks stand before it. -/
theorem cookieOf_pair (formed : CookieFormed cookie) (blank : ∀ c ∈ lead, isWhiteSpace c = true)
    (name : String) :
    cookieOf name (lead ++ cookiePair cookie) = if cookie.1 = name then some cookie.2 else none := by
  have trimmed : trimChars (lead ++ cookiePair cookie) = cookiePair cookie := by
    have plain : trimChars (lead ++ cookiePair cookie) = trimChars (cookiePair cookie) := by
      rw [trimChars, List.dropWhile_append_of_pos blank]
      rfl
    rw [plain]
    exact (trimmed_of_solid fun c among => (formed.solid c among).1).trimChars_eq
  have absent : '=' ∉ cookie.1.toList := fun among => (formed.name _ among).2.2 rfl
  rw [cookieOf, trimmed, cookiePair, splitOnce_at absent, Option.bind_some, String.ofList_toList]
  simp only [String.toList_inj]

/-- The pieces of a header are its cookies. -/
theorem findSome?_cookiesAfter {cookies : List (String × String)}
    (formed : ∀ cookie ∈ cookies, CookieFormed cookie) (blank : ∀ c ∈ lead, isWhiteSpace c = true ∧ c ≠ ';')
    (name : String) :
    (splitChars ';' (cookiesAfter lead cookies)).findSome? (cookieOf name) =
      (cookies.find? (·.1 = name)).map (·.2) := by
  have noSeparator {cookie : String × String} {lead : List Char} (formed : CookieFormed cookie)
      (blank : ∀ c ∈ lead, isWhiteSpace c = true ∧ c ≠ ';') : ';' ∉ lead ++ cookiePair cookie := by
    intro among
    obtain before | inside := List.mem_append.mp among
    · exact (blank _ before).2 rfl
    · exact (formed.solid _ inside).2 rfl
  fun_induction cookiesAfter lead cookies with
  | case1 lead =>
      have absent : ';' ∉ lead := fun among => (blank _ among).2 rfl
      have trimmed : trimChars lead = [] := by
        rw [trimChars, List.dropWhile_eq_nil_iff.mpr fun c among => (blank c among).1]
        rfl
      rw [splitChars_of_notMem absent, List.findSome?_singleton, cookieOf, trimmed]
      rfl
  | case2 lead cookie =>
      have own := formed cookie List.mem_cons_self
      rw [splitChars_of_notMem (noSeparator own blank), List.findSome?_singleton,
        cookieOf_pair own fun c among => (blank c among).1]
      by_cases same : cookie.1 = name <;> simp [same]
  | case3 lead cookie rest more ih =>
      have own := formed cookie List.mem_cons_self
      rw [splitChars_append (noSeparator own blank), List.findSome?_cons,
        cookieOf_pair own fun c among => (blank c among).1]
      by_cases same : cookie.1 = name
      · simp [same]
      · rw [if_neg same, List.find?_cons_of_neg (by simpa using same)]
        refine ih (fun other among => formed other (List.mem_cons_of_mem _ among)) ?_
        intro c among
        rw [List.mem_singleton.mp among]
        decide

/-- The header is read as the cookies that it was written from. -/
theorem cookieValue_header {cookies : List (String × String)}
    (formed : ∀ cookie ∈ cookies, CookieFormed cookie) (name : String) :
    cookieValue (cookieHeader cookies) name = (cookies.find? (·.1 = name)).map (·.2) := by
  rw [cookieValue, cookieHeader, String.toList_ofList]
  exact findSome?_cookiesAfter formed (fun c among => by cases among) name

end Headers

section Flows

/-- What a sign-in keeps, of parts that do not contain the separator. -/
structure FlowFormed (flow : OidcFlowState) : Prop where
  parts : flow.state ≠ "" ∧ flow.nonce ≠ "" ∧ flow.pkceVerifier ≠ ""
  state : '|' ∉ flow.state.toList
  nonce : '|' ∉ flow.nonce.toList

/-- The provider is asked about this browser's own sign-in alone, and where it has echoed its state. -/
def OwnExchange (flow : OidcFlowState) (code echoed : String) : SignInRequest → Prop
  | .inr (.exchangeAndVerify _ asked pkceVerifier nonce) =>
      asked = code ∧ pkceVerifier = flow.pkceVerifier ∧ nonce = flow.nonce ∧ echoed = flow.state
  | .inr _ => False
  | .inl _ => True

variable {flow : OidcFlowState} {code echoed : String}

theorem decode_encode (formed : FlowFormed flow) : OidcFlowState.decode flow.encode = some flow := by
  obtain ⟨state, nonce, pkceVerifier⟩ := flow
  obtain ⟨⟨hasState, hasNonce, hasVerifier⟩, stateFree, nonceFree⟩ := formed
  have told : (OidcFlowState.encode ⟨state, nonce, pkceVerifier⟩).toList =
      state.toList ++ '|' :: (nonce.toList ++ '|' :: pkceVerifier.toList) := by
    simp only [OidcFlowState.encode, String.toList_append, List.append_assoc]
    rfl
  have present : ¬ (state.toList = [] ∨ nonce.toList = [] ∨ pkceVerifier.toList = []) := by
    simp only [String.toList_eq_nil_iff, not_or]
    exact ⟨hasState, hasNonce, hasVerifier⟩
  rw [OidcFlowState.decode, told, splitOnce_at stateFree, Option.bind_some, splitOnce_at nonceFree,
    Option.bind_some, if_neg present]
  simp only [String.ofList_toList]

/-- The one cookie of a name is the one that is found under it. -/
theorem find?_cookie {cookies : List (String × String)} (distinct : (cookies.map Prod.fst).Nodup)
    {cookie : String × String} (among : cookie ∈ cookies) :
    cookies.find? (·.1 = cookie.1) = some cookie := by
  cases found : cookies.find? (·.1 = cookie.1) with
  | none => exact absurd (decide_eq_true rfl) (List.find?_eq_none.mp found cookie among)
  | some other =>
      have told := List.find?_some found
      have same : other.1 = cookie.1 := of_decide_eq_true told
      rw [List.inj_on_of_nodup_map distinct (List.mem_of_find?_eq_some found) among same]

theorem readCallback_own {cookies : List (String × String)}
    (formed : ∀ cookie ∈ cookies, CookieFormed cookie) (distinct : (cookies.map Prod.fst).Nodup)
    (plain : FlowFormed flow) (kept : (oidcFlowCookie, flow.encode) ∈ cookies) (code echoed : String) :
    readCallback (some (cookieHeader cookies)) ⟨some code, some echoed, none⟩ =
      .ok (code, echoed, flow) := by
  have value : cookieValue (cookieHeader cookies) oidcFlowCookie = some flow.encode := by
    rw [cookieValue_header formed, find?_cookie distinct kept]
    rfl
  simp only [readCallback, Option.isSome_none, Bool.false_eq_true, if_false, Option.bind_some, value,
    decode_encode plain]

/-- A call of the store is no exchange. -/
theorem only_onCredentials {Error Value : Type}
    (useCase : Program CredentialRequest CredentialRequest.Answer Error Value) :
    (onCredentials useCase).Only (OwnExchange flow code echoed) fun _ _ => True := by
  intro history
  rw [onCredentials]
  induction useCase generalizing history with
  | done value => trivial
  | fail error => trivial
  | spin => trivial
  | call request rest ih => exact ⟨trivial, fun answer => ih answer _⟩

theorem only_oidcComplete (gatehouse : Gatehouse) (forms : ProviderForms) (gravatarKey : String → String) :
    (oidcComplete gatehouse forms gravatarKey code echoed flow).Only (OwnExchange flow code echoed)
      fun _ _ => True := by
  unfold oidcComplete
  split
  · exact .fail fun _ => trivial
  · rename_i same
    refine (only_onCredentials _).bind fun _ => (only_onCredentials _).bind fun config => ?_
    refine Program.Only.bind (.ask ⟨rfl, rfl, rfl, not_not.mp same⟩) fun answer => ?_
    refine Program.Only.bind (.ofExcept fun _ _ _ => trivial) fun claims => ?_
    refine (only_onCredentials _).bind fun mode => (only_onCredentials _).bind fun may => ?_
    split
    · exact .fail fun _ => trivial
    · exact only_onCredentials _

/-- A callback of the provider continues the sign-in that its browser began, and no other: among whatever
cookies, the one that was set tells the flow again, and whatever the store and the provider answer, the
code is exchanged with this flow's verifier and nonce alone, and only where its state was echoed. -/
theorem callback_continues_own_flow (gatehouse : Gatehouse) (forms : ProviderForms)
    (gravatarKey : String → String) (cookies : List (String × String))
    (formed : ∀ cookie ∈ cookies, CookieFormed cookie) (distinct : (cookies.map Prod.fst).Nodup)
    (flow : OidcFlowState) (plain : FlowFormed flow) (kept : (oidcFlowCookie, flow.encode) ∈ cookies)
    (code echoed : String) :
    readCallback (some (cookieHeader cookies)) ⟨some code, some echoed, none⟩ = .ok (code, echoed, flow) ∧
      (oidcCallback gatehouse forms gravatarKey (some (cookieHeader cookies))
        ⟨some code, some echoed, none⟩).Only (OwnExchange flow code echoed) fun _ _ => True := by
  have read := readCallback_own formed distinct plain kept code echoed
  refine ⟨read, ?_⟩
  rw [oidcCallback, read]
  exact only_oidcComplete gatehouse forms gravatarKey

def ownFlow : OidcFlowState := ⟨"s7", "n3", "v9"⟩

/-- A browser with further cookies before and behind that of its sign-in. -/
def browserCookies : List (String × String) :=
  [("theme", "dark"), (oidcFlowCookie, "s7|n3|v9"), ("lang", "en=gb")]

theorem callback_continues_own_flow_browser :
    readCallback (some (cookieHeader browserCookies)) ⟨some "code", some "s7", none⟩ =
      .ok ("code", "s7", ownFlow) := by
  have formed : ∀ cookie ∈ browserCookies, CookieFormed cookie := by
    have names : browserCookies.all (fun cookie => cookie.1.toList.all fun c =>
        !isWhiteSpace c && c != ';' && c != '=') = true := by decide
    have values : browserCookies.all (fun cookie => cookie.2.toList.all fun c =>
        !isWhiteSpace c && c != ';') = true := by decide
    simp only [List.all_eq_true, Bool.and_eq_true, Bool.not_eq_true', bne_iff_ne] at names values
    intro cookie among
    refine ⟨fun c inside => ?_, values cookie among⟩
    obtain ⟨⟨solid, noSemicolon⟩, noEquals⟩ := names cookie among c inside
    exact ⟨solid, noSemicolon, noEquals⟩
  exact (callback_continues_own_flow openGatehouse ⟨fun _ => .error "none", fun _ => .error "none"⟩ id
    browserCookies formed (by decide) ownFlow ⟨by decide, by decide, by decide⟩ (by decide) "code" "s7").1

end Flows

end Sanshain.Guarantees
