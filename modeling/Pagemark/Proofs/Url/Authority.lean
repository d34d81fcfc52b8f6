/-
  Pagemark.Proofs.Url.Authority — authorities read back from their text.

  Credentials end at the last at sign, the user name in them at the first colon, the host at the
  first colon outside brackets, and the port where the authority ends. What is written in each
  part holds none of the marks that end it, because an escape is written for every one of them;
  an empty password and the port that the scheme implies are never read (`Written`). Authorities
  without a host are left out.

  Proved: `written_of_readAuthority` — what is read is written so; `readAuthority_append` — an
  authority is read as it is, whatever follows where it ends; `readAuthority_text` — the text of
  an authority is read as the authority.
-/

import Pagemark.Proofs.Url.Host
import Pagemark.Proofs.Url.Reference

namespace Pagemark.Url

open Text

/-! ## Components that are escaped -/

/-- The characters that stand in a component, escapes included, are shown ones. -/
structure Keeps (keep : Char → Bool) : Prop where
  shown : ∀ c, keep c = true → c.toNat < 128 ∧ isEdge c = false
  percent : keep '%' = true
  alphanum : ∀ c, c.isAlphanum = true → keep c = true

theorem keeps_of_isShown {keep : Char → Bool} (shown : ∀ c, keep c = true → isShown c = true)
    (table : ∀ n : Fin 128, (keep (Char.ofNat n) = true → isEdge (Char.ofNat n) = false) ∧
      ((Char.ofNat n).isAlphanum = true → keep (Char.ofNat n) = true)) (percent : keep '%' = true) : Keeps keep where
  shown c h := by
    have hlt := toNat_lt_of_isShown (shown c h)
    exact ⟨hlt, ascii_forall (P := fun c => keep c = true → isEdge c = false) (fun n => (table n).1) hlt h⟩
  percent := percent
  alphanum c h := ascii_forall (P := fun c => c.isAlphanum = true → keep c = true) (fun n => (table n).2)
    (toNat_lt_of_isAlphanum h) h

theorem keeps_fragment : Keeps fragmentKeeps :=
  keeps_of_isShown (fun c h => by simp only [fragmentKeeps, Bool.and_eq_true] at h; exact h.1) (by decide) (by decide)

theorem keeps_query (kind : Kind) : Keeps (queryKeeps kind) := by
  have shown : ∀ c, queryKeeps kind c = true → isShown c = true := fun c h => by
    simp only [queryKeeps, Bool.and_eq_true] at h
    exact h.1.1
  cases kind with
  | web => exact keeps_of_isShown shown (by decide) (by decide)
  | file => exact keeps_of_isShown shown (by decide) (by decide)
  | other => exact keeps_of_isShown shown (by decide) (by decide)

theorem keeps_credential : Keeps credentialKeeps :=
  keeps_of_isShown
    (fun c h => by simp only [credentialKeeps, pathKeeps, fragmentKeeps, Bool.and_eq_true] at h; exact h.1.1.1)
    (by decide) (by decide)

/-- All characters are kept. -/
def Kept (keep : Char → Bool) (text : String) : Prop := ∀ c ∈ text.toList, keep c = true

section Keeps

variable {keep : Char → Bool} (hkeep : Keeps keep)

include hkeep

theorem kept_escaped (cs : List Char) : Kept keep (escaped keep cs) := by
  intro c hc
  rw [escaped, String.toList_ofList] at hc
  rcases Percent.mem_encode hc with ⟨-, hc, -⟩ | rfl | hc
  · exact hc
  · exact hkeep.percent
  · exact hkeep.alphanum c hc

theorem escaped_of_kept {text : String} (h : Kept keep text) : escaped keep text.toList = text := by
  rw [escaped, Percent.encode_of_kept fun c hc => ⟨(hkeep.shown c (h c hc)).1, h c hc⟩, String.ofList_toList]

end Keeps

/-- No character of a credential has a meaning in an authority. -/
theorem credentialKeeps_spec {c : Char} (h : credentialKeeps c = true) : InAuthority c ∧ c ≠ ':' ∧ c ≠ '@' :=
  ascii_forall (P := fun c => credentialKeeps c = true → InAuthority c ∧ c ≠ ':' ∧ c ≠ '@') (by decide)
    (keeps_credential.shown c h).1 h

/-! ## Credentials -/

/-- User name and password, as they stand before the at sign. -/
def credentialText (username : String) : Option String → List Char
  | none => username.toList
  | some password => username.toList ++ ':' :: password.toList

/-- What user names and passwords hold; no password is empty. -/
structure CredentialsWritten (username : String) (password : Option String) : Prop where
  username : Kept credentialKeeps username
  password : ∀ p ∈ password, Kept credentialKeeps p ∧ p.toList ≠ []

theorem readCredentials_text {username : String} {password : Option String} (h : CredentialsWritten username password) :
    readCredentials (credentialText username password) = (username, password) := by
  have hcolon : ':' ∉ username.toList := fun hc => (credentialKeeps_spec (h.username _ hc)).2.1 rfl
  have hname := escaped_of_kept keeps_credential h.username
  unfold readCredentials
  cases password with
  | none =>
    rw [credentialText, cut_of_not_mem hcolon]
    simp only [hname]
  | some p =>
    obtain ⟨hkept, hne⟩ := h.password p rfl
    have hpassword := escaped_of_kept keeps_credential hkept
    rw [credentialText, cut_append hcolon]
    cases hp : p.toList with
    | nil => exact absurd hp hne
    | cons c cs =>
      rw [hp] at hpassword
      simp only [hname, hpassword]

theorem credentialsWritten_of_readCredentials (cs : List Char) :
    CredentialsWritten (readCredentials cs).1 (readCredentials cs).2 := by
  have kept := kept_escaped keeps_credential
  unfold readCredentials
  split
  · exact ⟨kept _, fun _ h => by cases h⟩
  · exact ⟨kept _, fun _ h => by cases h⟩
  · rename_i name password hne _
    have hne : password ≠ [] := fun e => hne (e ▸ rfl)
    refine ⟨kept _, fun p hp => ?_⟩
    cases hp
    refine ⟨kept _, ?_⟩
    rw [escaped, String.toList_ofList]
    exact Percent.encode_ne_nil hne

/-! ## The last at sign -/

theorem cutLast_append {c : Char} {behind : List Char} (h : c ∉ behind) (before : List Char) :
    cutLast c (before ++ c :: behind) = some (before, behind) := by
  have reversed : (before ++ c :: behind).reverse = behind.reverse ++ c :: before.reverse := by simp
  unfold cutLast
  rw [reversed, cut_append (by simpa using h)]
  simp only [List.reverse_reverse]

theorem cutLast_of_not_mem {c : Char} {cs : List Char} (h : c ∉ cs) : cutLast c cs = none := by
  unfold cutLast
  rw [cut_of_not_mem (by simpa using h)]

theorem cutLast_eq_some {c : Char} {cs before behind : List Char} (h : cutLast c cs = some (before, behind)) :
    cs = before ++ c :: behind := by
  have huncut := uncut_cut c cs.reverse
  unfold cutLast at h
  split at h
  · cases h
  · rename_i hcut
    cases h
    rw [hcut] at huncut
    have hreverse := congrArg List.reverse huncut
    rw [List.reverse_reverse] at hreverse
    rw [← hreverse]
    simp [uncut]

/-! ## Where authorities end -/

/-- What may follow an authority: nothing, or a text that begins with a slash or a mark. -/
def EndsAuthority (rest : List Char) : Prop := ∀ c ∈ rest.head?, c = '/' ∨ isTailMark c = true

theorem endsAuthority_nil : EndsAuthority [] := fun _ hc => by cases hc

theorem EndsAuthority.ends {rest : List Char} (h : EndsAuthority rest) (kind : Kind) :
    ∀ c ∈ rest.head?, (kind.isSlash c || isTailMark c) = true := by
  intro c hc
  rcases h c hc with rfl | hmark
  · rw [kind.isSlash_slash, Bool.true_or]
  · rw [hmark, Bool.or_true]

theorem Inside.goesOn {c : Char} (h : Inside c) (kind : Kind) : (kind.isSlash c || isTailMark c) = false := by
  rw [kind.isSlash_of_web h.1, h.2]
  rfl

/-- An authority is taken apart from what follows it. -/
theorem span_inside (kind : Kind) {front rest : List Char} (h : ∀ c ∈ front, Inside c) (hrest : EndsAuthority rest) :
    (front ++ rest).takeWhile (fun c => !(kind.isSlash c || isTailMark c)) = front ∧
      (front ++ rest).dropWhile (fun c => !(kind.isSlash c || isTailMark c)) = rest := by
  have hfront : ∀ c ∈ front, (!(kind.isSlash c || isTailMark c)) = true := fun c hc => by simp [(h c hc).goesOn kind]
  rw [List.takeWhile_append_of_pos hfront, List.dropWhile_append_of_pos hfront]
  cases rest with
  | nil => simp
  | cons c cs =>
    have hends := hrest.ends kind c rfl
    rw [List.takeWhile_cons_of_neg (by simp [hends]), List.dropWhile_cons_of_neg (by simp [hends]), List.append_nil]
    exact ⟨rfl, rfl⟩

theorem readUser_of_not_mem (kind : Kind) {cs : List Char} (h : ∀ c ∈ cs, Inside c) (hat : '@' ∉ cs) :
    readUser kind cs = .ok (("", none), cs) := by
  have htake := (span_inside kind h endsAuthority_nil).1
  rw [List.append_nil] at htake
  unfold readUser
  simp only [htake, cutLast_of_not_mem hat]

theorem readUser_credentials (kind : Kind) {user hostPort : List Char} (huser : ∀ c ∈ user, Inside c)
    (h : ∀ c ∈ hostPort, Inside c) (hne : hostPort ≠ []) (hat : '@' ∉ hostPort) :
    readUser kind (user ++ '@' :: hostPort) = .ok (readCredentials user, hostPort) := by
  have hall : ∀ c ∈ user ++ '@' :: hostPort, Inside c := by
    intro c hc
    rcases List.mem_append.mp hc with hc | hc
    · exact huser c hc
    rcases List.mem_cons.mp hc with rfl | hc
    · decide
    · exact h c hc
  obtain ⟨htake, hdrop⟩ := span_inside kind hall endsAuthority_nil
  rw [List.append_nil] at htake hdrop
  unfold readUser
  simp only [htake, hdrop, cutLast_append hat]
  split
  · rename_i e; cases e
  · rename_i e
    cases e
    exact absurd rfl hne
  · rename_i e
    cases e
    rw [List.append_nil]

/-- Credentials are read as they are, whatever follows the authority. -/
theorem readUser_append {kind : Kind} {cs behind rest : List Char} {user : String × Option String}
    (hcs : ∀ c ∈ cs, Inside c) (hrest : EndsAuthority rest) (h : readUser kind cs = .ok (user, behind))
    (hne : behind ≠ []) : readUser kind (cs ++ rest) = .ok (user, behind ++ rest) := by
  obtain ⟨halone, hnothing⟩ := span_inside kind hcs endsAuthority_nil
  obtain ⟨htake, hdrop⟩ := span_inside kind hcs hrest
  rw [List.append_nil] at halone hnothing
  unfold readUser at h ⊢
  simp only [halone, hnothing] at h
  simp only [htake, hdrop]
  split at h
  · cases h
    rfl
  · cases h
    exact absurd rfl hne
  · cases h
    simp only [List.append_nil]

theorem inside_of_readUser {kind : Kind} {cs behind : List Char} {user : String × Option String}
    (hcs : ∀ c ∈ cs, Inside c) (h : readUser kind cs = .ok (user, behind)) : ∀ c ∈ behind, Inside c := by
  obtain ⟨htake, hdrop⟩ := span_inside kind hcs endsAuthority_nil
  rw [List.append_nil] at htake hdrop
  unfold readUser at h
  simp only [htake, hdrop] at h
  split at h
  · cases h
    exact hcs
  · cases h
    exact fun c hc => absurd hc List.not_mem_nil
  · rename_i hcut
    cases h
    rw [List.append_nil]
    intro c hc
    refine hcs c ?_
    rw [cutLast_eq_some hcut]
    exact List.mem_append_right _ (List.mem_cons_of_mem _ hc)

/-! ## The end of the host -/

/-- In brackets a host may hold colons. -/
theorem cutHost_append (kind : Kind) {inside : Bool} {host : List Char}
    (h : ∀ c ∈ host, Inside c ∧ (c = ':' → inside = true) ∧ c ≠ '[' ∧ c ≠ ']') (rest : List Char) :
    cutHost kind inside (host ++ rest) = (host ++ (cutHost kind inside rest).1, (cutHost kind inside rest).2) := by
  induction host with
  | nil => rfl
  | cons c host ih =>
    obtain ⟨⟨hinside, hcolon, hopen, hclose⟩, hhost⟩ := List.forall_mem_cons.mp h
    have hgoes : ((c == ':' && !inside) || kind.isSlash c || isTailMark c) = false := by
      rw [Bool.or_assoc, hinside.goesOn kind, Bool.or_false]
      cases inside with
      | true => simp
      | false => simpa using fun e => absurd (hcolon e) (by decide)
    rw [List.cons_append, cutHost, if_neg (by simp [hgoes])]
    simp only [beq_iff_eq, hopen, hclose, if_false, ih hhost]
    rfl

/-- Where an authority ends, so does its host, in brackets or not. -/
theorem cutHost_of_ends (kind : Kind) (inside : Bool) {rest : List Char} (hrest : EndsAuthority rest) :
    cutHost kind inside rest = ([], rest) := by
  cases rest with
  | nil => rfl
  | cons c rest =>
    have hends := hrest.ends kind c rfl
    rw [cutHost, if_pos (by rw [Bool.or_assoc, hends, Bool.or_true])]

/-- The end of the host does not depend on what follows the authority. -/
theorem cutHost_append_rest (kind : Kind) (inside : Bool) (cs : List Char) {rest : List Char}
    (hrest : EndsAuthority rest) :
    cutHost kind inside (cs ++ rest) = ((cutHost kind inside cs).1, (cutHost kind inside cs).2 ++ rest) := by
  fun_induction cutHost kind inside cs with
  | case1 inside => exact cutHost_of_ends kind inside hrest
  | case2 inside c cs hends => rw [List.cons_append, cutHost, if_pos hends]
  | case3 inside c cs hgoes inside' ih =>
    rw [List.cons_append, cutHost, if_neg hgoes]
    show (c :: (cutHost kind inside' (cs ++ rest)).1, (cutHost kind inside' (cs ++ rest)).2) = _
    rw [ih]

/-- Behind the host of an authority stands a port or nothing. -/
theorem cutHost_snd_of_inside (kind : Kind) (inside : Bool) {cs : List Char} (h : ∀ c ∈ cs, Inside c) :
    (∀ c ∈ (cutHost kind inside cs).2.head?, c = ':') ∧ ∀ c ∈ (cutHost kind inside cs).2, Inside c := by
  fun_induction cutHost kind inside cs with
  | case1 => exact ⟨fun _ hc => (by cases hc), h⟩
  | case2 inside c cs hends =>
    refine ⟨fun x hx => ?_, h⟩
    rw [Bool.or_assoc, (h c List.mem_cons_self).goesOn kind, Bool.or_false, Bool.and_eq_true, beq_iff_eq] at hends
    cases hx
    exact hends.1
  | case3 inside c cs hgoes inside' ih => exact ih fun x hx => h x (List.mem_cons_of_mem _ hx)

/-- The host is what stands before a port. -/
theorem cutHost_text (kind : Kind) {host : Host} (h : host.Spelled) {port : List Char}
    (hport : ∀ c ∈ port.head?, c = ':') :
    cutHost kind false (host.text.toList ++ port) = (host.text.toList, port) := by
  have hrest : cutHost kind false port = ([], port) := by
    cases port with
    | nil => rfl
    | cons c cs => rw [cutHost, if_pos (by simp [hport c rfl])]
  cases h with
  | plain hne h =>
    rw [cutHost_append, hrest, List.append_nil]
    intro c hc
    obtain ⟨hin, hcolon, hopen, hclose, -⟩ := h c hc
    exact ⟨hin.2, fun e => absurd e hcolon, hopen, hclose⟩
  | ipv6 groups =>
    have hinside : ∀ x ∈ (ipv6Text groups).toList, Inside x ∧ (x = ':' → true = true) ∧ x ≠ '[' ∧ x ≠ ']' := by
      intro x hx
      rcases Host.mem_ipv6Text hx with rfl | hx
      · decide
      · have hne := fun {y : Char} (hy : y.isAlphanum = false) => ne_of_isAlphanum hx hy
        exact ⟨(inAuthority_of_isAlphanum hx).2, fun _ => rfl, hne (by decide), hne (by decide)⟩
    have hopen : ∀ rest, cutHost kind false ('[' :: rest)
        = ('[' :: (cutHost kind true rest).1, (cutHost kind true rest).2) := by
      intro rest
      have hgoes := (by decide : Inside '[').goesOn kind
      rw [cutHost, if_neg (by rw [Bool.or_assoc, hgoes]; decide)]
      rfl
    have hclose : ∀ rest, cutHost kind true (']' :: rest)
        = (']' :: (cutHost kind false rest).1, (cutHost kind false rest).2) := by
      intro rest
      have hgoes := (by decide : Inside ']').goesOn kind
      rw [cutHost, if_neg (by rw [Bool.or_assoc, hgoes]; decide)]
      rfl
    rw [Host.toList_text_ipv6, List.cons_append, List.append_assoc, List.singleton_append, hopen,
      cutHost_append kind hinside, hclose, hrest]

/-! ## Ports -/

theorem readPort_digits {digits : List Char} (hd : ∀ c ∈ digits, c.isDigit = true) {value : Nat}
    (hle : Nat.ofDigitChars 10 digits value ≤ 65535) :
    readPort (some value) digits = .ok (some (Nat.ofDigitChars 10 digits value), []) := by
  induction digits generalizing value with
  | nil => rfl
  | cons c digits ih =>
    obtain ⟨hc, hdigits⟩ := List.forall_mem_cons.mp hd
    rw [Nat.ofDigitChars_cons] at hle ⊢
    have hvalue : value * 10 + (c.toNat - 48) = 10 * value + (c.toNat - '0'.toNat) := by
      show _ = 10 * value + (c.toNat - 48)
      omega
    have hgrows := le_ofDigitChars digits (10 * value + (c.toNat - '0'.toNat))
    rw [readPort, digit?_of_isDigit hc]
    simp only [Option.getD_some, hvalue]
    rw [if_pos (by omega), ih hdigits hle]

theorem readPort_decimal {n : Nat} (h : n ≤ 65535) : readPort none (decimal n).toList = .ok (some n, []) := by
  have hd : ∀ c ∈ (decimal n).toList, c.isDigit = true := fun c hc => isDigit_of_mem_decimal hc
  have hvalue := ofDigitChars_decimal n
  have hread : readPort (some 0) (decimal n).toList = .ok (some n, []) := by
    rw [readPort_digits hd (by rwa [hvalue]), hvalue]
  -- The first digit makes up for the value that is missing.
  obtain ⟨c, cs, hcs⟩ := List.exists_cons_of_ne_nil (decimal_ne_nil n)
  rw [hcs] at hd hread ⊢
  rw [← hread, readPort, readPort, digit?_of_isDigit (hd c List.mem_cons_self)]
  rfl

/-- A port is read as it is, whatever follows the authority. -/
theorem readPort_append {value port : Option Nat} {cs behind rest : List Char} (hcs : ∀ c ∈ cs, Inside c)
    (hrest : EndsAuthority rest) (h : readPort value cs = .ok (port, behind)) :
    readPort value (cs ++ rest) = .ok (port, rest) := by
  fun_induction readPort value cs with
  | case1 value =>
    cases h
    cases rest with
    | nil => rfl
    | cons c rest =>
      -- Neither a slash nor a mark is a digit.
      have hends := hrest c rfl
      have hdigit : digit? 10 c = none := by
        simp only [isTailMark, Bool.or_eq_true, beq_iff_eq] at hends
        rcases hends with rfl | rfl | rfl
        · rfl
        · rfl
        · rfl
      have hstop : (c == '/' || c == '\\' || isTailMark c) = true := by
        rcases hends with rfl | hmark
        · rfl
        · rw [hmark, Bool.or_true]
      rw [List.nil_append, readPort, hdigit]
      exact if_pos hstop
  | case2 value c cs d hd next hle ih =>
    have hread := ih (fun x hx => hcs x (List.mem_cons_of_mem _ hx)) h
    rw [List.cons_append, readPort, hd]
    exact (if_pos hle).trans hread
  | case3 => cases h
  | case4 value c cs hdigit hstop =>
    have hgoes := (hcs c List.mem_cons_self).goesOn .web
    exact absurd (hgoes.symm.trans hstop) (by decide)
  | case5 => cases h

theorem le_of_readPort {value port : Option Nat} {cs rest : List Char} (h : readPort value cs = .ok (port, rest))
    (hvalue : ∀ n ∈ value, n ≤ 65535) : ∀ n ∈ port, n ≤ 65535 := by
  fun_induction readPort value cs with
  | case1 value =>
    cases h
    exact hvalue
  | case2 value c cs d _ next hle ih =>
    refine ih h fun n hn => ?_
    cases hn
    exact hle
  | case3 => cases h
  | case4 value c cs =>
    cases h
    exact hvalue
  | case5 => cases h

/-! ## Authorities -/

/-- An authority of a scheme. -/
structure Authority.Written [Idna] (scheme : String) (a : Authority) : Prop where
  credentials : CredentialsWritten a.username a.password
  host : a.host.WrittenIn (.ofScheme scheme)
  port : ∀ n ∈ a.port, n ≤ 65535 ∧ some n ≠ defaultPort scheme

/-- The credentials and the at sign behind them. -/
def Authority.userText (a : Authority) : List Char :=
  if a.hasCredentials then credentialText a.username a.password ++ ['@'] else []

/-- The colon and the port behind it. -/
def Authority.portText (a : Authority) : List Char :=
  match a.port with
  | none => []
  | some n => ':' :: (decimal n).toList

theorem Authority.toList_text (a : Authority) : a.text.toList = a.userText ++ (a.host.text.toList ++ a.portText) := by
  obtain ⟨username, password, host, port⟩ := a
  unfold text userText portText
  cases hcredentials : hasCredentials ⟨username, password, host, port⟩ with
  | false => cases port <;> simp
  | true =>
    cases password with
    | none => cases port <;> simp [credentialText]
    | some p => cases port <;> simp [credentialText]

/-- The port behind a colon, if one follows the host. -/
def readPortBehind : List Char → Except ParseError (Option Nat × List Char)
  | ':' :: digits => readPort none digits
  | rest => .ok (none, rest)

theorem readPortBehind_append {port : Option Nat} {cs behind rest : List Char} (hcs : ∀ c ∈ cs, Inside c)
    (hcolon : ∀ c ∈ cs.head?, c = ':') (hrest : EndsAuthority rest) (h : readPortBehind cs = .ok (port, behind)) :
    readPortBehind (cs ++ rest) = .ok (port, rest) := by
  cases cs with
  | nil =>
    cases h
    unfold readPortBehind
    split
    · rename_i digits e
      exact absurd (hrest ':' (by rw [← List.nil_append rest, e]; rfl)) (by decide)
    · rfl
  | cons c cs =>
    obtain rfl := hcolon c rfl
    exact readPort_append (fun c hc => hcs c (List.mem_cons_of_mem _ hc)) hrest h

section Written

variable {scheme : String} {a : Authority}

theorem Authority.portText_spec (a : Authority) : ∀ c ∈ a.portText, InAuthority c ∧ c ≠ '@' := by
  intro c hc
  unfold portText at hc
  split at hc
  · cases hc
  · rcases List.mem_cons.mp hc with rfl | hc
    · decide
    · have hc := isAlphanum_of_isDigit (isDigit_of_mem_decimal hc)
      exact ⟨inAuthority_of_isAlphanum hc, ne_of_isAlphanum hc (by decide)⟩

theorem Authority.head_portText (a : Authority) : ∀ c ∈ a.portText.head?, c = ':' := by
  intro c hc
  unfold portText at hc
  split at hc
  · cases hc
  · cases hc
    rfl

theorem readPortBehind_portText (h : ∀ n ∈ a.port, n ≤ 65535) : readPortBehind a.portText = .ok (a.port, []) := by
  unfold Authority.portText
  split
  · rename_i hport
    rw [hport]
    rfl
  · rename_i n hport
    rw [hport]
    exact readPort_decimal (h n hport)

theorem CredentialsWritten.inAuthority {username : String} {password : Option String}
    (h : CredentialsWritten username password) : ∀ c ∈ credentialText username password, InAuthority c := by
  have kept : ∀ {text}, Kept credentialKeeps text → ∀ c ∈ text.toList, InAuthority c := fun hkept c hc =>
    (credentialKeeps_spec (hkept c hc)).1
  cases password with
  | none => exact kept h.username
  | some p =>
    intro c hc
    rcases List.mem_append.mp hc with hc | hc
    · exact kept h.username c hc
    rcases List.mem_cons.mp hc with rfl | hc
    · decide
    · exact kept (h.password p rfl).1 c hc

theorem credentialsWritten_of_readUser {kind : Kind} {cs rest : List Char} {username : String}
    {password : Option String} (h : readUser kind cs = .ok ((username, password), rest)) :
    CredentialsWritten username password := by
  have empty : CredentialsWritten "" none := ⟨fun _ hc => absurd hc List.not_mem_nil, fun _ hp => by cases hp⟩
  unfold readUser at h
  simp only at h
  split at h
  · cases h
    exact empty
  · split at h
    · cases h
      exact empty
    · cases h
  · rename_i user behind _ _
    have written := credentialsWritten_of_readCredentials user
    rwa [(Prod.mk.inj (Except.ok.inj h)).1] at written

theorem le_of_readPortBehind {cs rest : List Char} {port : Option Nat} (h : readPortBehind cs = .ok (port, rest)) :
    ∀ n ∈ port, n ≤ 65535 := by
  unfold readPortBehind at h
  split at h
  · exact le_of_readPort h (by simp)
  · cases h
    simp

variable [Idna]

theorem Authority.Written.host_spec (h : a.Written scheme) :
    a.host.text.toList ≠ [] ∧ ∀ c ∈ a.host.text.toList, InAuthority c ∧ c ≠ '@' :=
  Host.text_spec (Host.spelled_of_writtenIn h.host)

theorem Authority.text_ne_nil (h : a.Written scheme) : a.text.toList ≠ [] := by
  rw [a.toList_text]
  refine List.append_ne_nil_of_right_ne_nil _ (List.append_ne_nil_of_left_ne_nil ?_ _)
  exact h.host_spec.1

/-- No character of an authority ends it. -/
theorem Authority.inAuthority_of_mem_text (h : a.Written scheme) : ∀ c ∈ a.text.toList, InAuthority c := by
  intro c hc
  rw [a.toList_text, List.mem_append, List.mem_append] at hc
  rcases hc with hc | hc | hc
  · unfold userText at hc
    split at hc
    · rcases List.mem_append.mp hc with hc | hc
      · exact h.credentials.inAuthority c hc
      · rw [List.mem_singleton.mp hc]
        decide
    · cases hc
  · exact (h.host_spec.2 c hc).1
  · exact (a.portText_spec c hc).1

/-! ## The parts that an authority is read from -/

/-- A text is read as an authority and a rest by way of what stands behind the credentials, and of a
port that the scheme may imply. -/
structure ReadFrom (scheme : String) (cs : List Char) (a : Authority) (rest behind : List Char) (given : Option Nat) :
    Prop where
  user : readUser (.ofScheme scheme) cs = .ok ((a.username, a.password), behind)
  host : Host.read (.ofScheme scheme) (cutHost (.ofScheme scheme) false behind).1 = .ok a.host
  behindHost : readPortBehind (cutHost (.ofScheme scheme) false behind).2 = .ok (given, rest)
  port : a.port = if given = defaultPort scheme then none else given

theorem readAuthority_of_readFrom {cs rest behind : List Char} {given : Option Nat}
    (h : ReadFrom scheme cs a rest behind given) (hempty : a.host ≠ .empty) :
    readAuthority scheme cs = .ok (a, rest) := by
  obtain ⟨huser, hhost, hbehind, hport⟩ := h
  have hfilled := List.isEmpty_eq_false_iff.mpr (Host.ne_nil_of_read hhost hempty)
  obtain ⟨username, password, host, port⟩ := a
  obtain rfl : port = _ := hport
  have ok_bind : ∀ {α β : Type} (x : α) (f : α → Except ParseError β), (Except.ok x >>= f) = f x := fun _ _ => rfl
  have read : ∀ f : Host → Except ParseError (Authority × List Char),
      (if Kind.ofScheme scheme = .other then Host.parseOpaque (cutHost (.ofScheme scheme) false behind).1 >>= f
        else Host.parse (cutHost (.ofScheme scheme) false behind).1 >>= f) = f host := by
    intro f
    unfold Host.read at hhost
    split at hhost
    · rename_i hother
      rw [if_pos hother, hhost]
      rfl
    · rename_i hother
      rw [if_neg hother, hhost]
      rfl
  unfold readAuthority
  simp only [huser, ok_bind, hfilled, read, hempty, decide_false, Bool.and_false, Bool.false_and, Bool.false_eq_true,
    if_false]
  split
  · rename_i digits hdigits
    rw [hdigits] at hbehind
    have hread : readPort none digits = .ok (given, rest) := hbehind
    rw [hread]
    rfl
  · rename_i hcolon
    unfold readPortBehind at hbehind
    split at hbehind
    · rename_i digits hdigits
      exact absurd hdigits (hcolon digits)
    · cases hbehind
      rfl

/-- An authority that is read was put together of its parts. -/
theorem parts_of_readAuthority {cs rest : List Char} (h : readAuthority scheme cs = .ok (a, rest)) :
    ∃ behind given, ReadFrom scheme cs a rest behind given ∧
      (Kind.ofScheme scheme = .web → (cutHost .web false behind).1 ≠ []) := by
  have ok_of_choice : ∀ {x y : Except ParseError Host} {f : Host → Except ParseError (Authority × List Char)} {b},
      (if Kind.ofScheme scheme = .other then x >>= f else y >>= f) = .ok b →
        ∃ host, (if Kind.ofScheme scheme = .other then x else y) = .ok host ∧ f host = .ok b := by
    intro x y f b h
    by_cases hother : Kind.ofScheme scheme = .other
    · rw [if_pos hother] at h ⊢
      exact ok_of_bind h
    · rw [if_neg hother] at h ⊢
      exact ok_of_bind h
  unfold readAuthority at h
  obtain ⟨⟨⟨username, password⟩, behind⟩, huser, h⟩ := ok_of_bind h
  obtain ⟨hfilled, h⟩ := ok_of_guard h
  obtain ⟨host, hhost, h⟩ := ok_of_choice h
  obtain ⟨-, h⟩ := ok_of_guard h
  have filled : Kind.ofScheme scheme = .web → (cutHost .web false behind).1 ≠ [] := by
    intro hweb e
    rw [hweb, e] at hfilled
    exact hfilled rfl
  have parts : ∀ {given}, readPortBehind (cutHost (.ofScheme scheme) false behind).2 = .ok (given, rest) →
      a = ⟨username, password, host, if given = defaultPort scheme then none else given⟩ →
      ∃ behind given, ReadFrom scheme cs a rest behind given ∧
        (Kind.ofScheme scheme = .web → (cutHost .web false behind).1 ≠ []) := by
    rintro given hbehind rfl
    exact ⟨behind, given, ⟨huser, hhost, hbehind, rfl⟩, filled⟩
  split at h
  · rename_i digits hdigits
    obtain ⟨⟨given, path⟩, hgiven, h⟩ := ok_of_bind h
    obtain ⟨-, h⟩ := ok_of_guard h
    cases h
    exact parts (by rw [hdigits]; exact hgiven) rfl
  · rename_i hcolon
    obtain ⟨⟨given, path⟩, hgiven, h⟩ := ok_of_bind h
    obtain ⟨-, h⟩ := ok_of_guard h
    cases h
    refine parts ?_ rfl
    unfold readPortBehind
    split
    · rename_i digits hdigits
      exact absurd hdigits (hcolon digits)
    · exact hgiven

/-- What is read is an authority of the scheme, if it has a host. -/
theorem written_of_readAuthority {cs rest : List Char} (h : readAuthority scheme cs = .ok (a, rest))
    (hempty : a.host ≠ .empty) : a.Written scheme := by
  obtain ⟨behind, given, ⟨huser, hhost, hbehind, hport⟩, -⟩ := parts_of_readAuthority h
  refine ⟨credentialsWritten_of_readUser huser, Host.writtenIn_of_read hhost hempty, fun n hn => ?_⟩
  rw [hport, Option.mem_def] at hn
  split at hn
  · cases hn
  · rename_i hdefault
    exact ⟨le_of_readPortBehind hbehind n hn, hn ▸ hdefault⟩

/-- Every authority of the web has a host. -/
theorem host_ne_empty_of_web (hkind : Kind.ofScheme scheme = .web) {cs rest : List Char}
    (h : readAuthority scheme cs = .ok (a, rest)) : a.host ≠ .empty := by
  obtain ⟨behind, given, parts, -⟩ := parts_of_readAuthority h
  have hhost := parts.host
  rw [hkind] at hhost
  intro e
  have written := Host.written_of_parse hhost
  rw [e] at written
  exact written

/-! ## Authorities in a text -/

/-- An authority with a host is read as it is, whatever follows where it ends. -/
theorem readAuthority_append {cs behind rest : List Char} (hcs : ∀ c ∈ cs, Inside c) (hrest : EndsAuthority rest)
    (h : readAuthority scheme cs = .ok (a, behind)) (hempty : a.host ≠ .empty) :
    readAuthority scheme (cs ++ rest) = .ok (a, rest) := by
  obtain ⟨hostPort, given, ⟨huser, hhost, hbehind, hport⟩, -⟩ := parts_of_readAuthority h
  have hinside : ∀ c ∈ hostPort, Inside c := inside_of_readUser hcs huser
  obtain ⟨hcolon, hports⟩ := cutHost_snd_of_inside (.ofScheme scheme) false hinside
  have hne : hostPort ≠ [] := by
    rintro rfl
    exact Host.ne_nil_of_read hhost hempty rfl
  have hcut := cutHost_append_rest (.ofScheme scheme) false hostPort hrest
  have parts : ReadFrom scheme (cs ++ rest) a rest (hostPort ++ rest) given := {
    user := readUser_append hcs hrest huser hne
    host := by rw [hcut]; exact hhost
    behindHost := by rw [hcut]; exact readPortBehind_append hports hcolon hrest hbehind
    port := hport }
  exact readAuthority_of_readFrom parts hempty

section Text

variable (h : a.Written scheme)

include h

/-- The host and the port behind the credentials. -/
theorem readUser_text (kind : Kind) :
    readUser kind a.text.toList = .ok ((a.username, a.password), a.host.text.toList ++ a.portText) := by
  obtain ⟨hne, hhost⟩ := h.host_spec
  have hrest : ∀ c ∈ a.host.text.toList ++ a.portText, InAuthority c ∧ c ≠ '@' := by
    intro c hc
    rcases List.mem_append.mp hc with hc | hc
    · exact hhost c hc
    · exact a.portText_spec c hc
  have hin : ∀ c ∈ a.host.text.toList ++ a.portText, Inside c := fun c hc => (hrest c hc).1.2
  have hat : '@' ∉ a.host.text.toList ++ a.portText := fun hc => (hrest _ hc).2 rfl
  rw [a.toList_text, Authority.userText]
  split
  · rw [List.append_assoc, List.singleton_append,
      readUser_credentials kind (fun c hc => (h.credentials.inAuthority c hc).2) hin
        (List.append_ne_nil_of_left_ne_nil hne _) hat,
      readCredentials_text h.credentials]
  · rename_i hcredentials
    have hnone : a.username = "" ∧ a.password = none := by
      simpa [Authority.hasCredentials] using hcredentials
    rw [hnone.1, hnone.2, List.nil_append, readUser_of_not_mem kind hin hat]

/-- The text of an authority is read as the authority, whatever follows where it ends. -/
theorem readAuthority_text {rest : List Char} (hrest : EndsAuthority rest) :
    readAuthority scheme (a.text.toList ++ rest) = .ok (a, rest) := by
  have hempty : a.host ≠ .empty := by
    intro e
    exact h.host_spec.1 (by rw [e]; rfl)
  have hcut := cutHost_text (.ofScheme scheme) (Host.spelled_of_writtenIn h.host) a.head_portText
  have hport : a.port = if a.port = defaultPort scheme then none else a.port := by
    split
    · rename_i hdefault
      cases hgiven : a.port with
      | none => rfl
      | some n => exact absurd (hgiven ▸ hdefault) (h.port n hgiven).2
    · rfl
  have parts : ReadFrom scheme a.text.toList a [] (a.host.text.toList ++ a.portText) a.port := {
    user := readUser_text h _
    host := by rw [hcut]; exact Host.read_text h.host
    behindHost := by rw [hcut]; exact readPortBehind_portText fun n hn => (h.port n hn).1
    port := hport }
  have alone := readAuthority_of_readFrom parts hempty
  exact readAuthority_append (fun c hc => (Authority.inAuthority_of_mem_text h c hc).2) hrest alone hempty

end Text

end Written

end Pagemark.Url
