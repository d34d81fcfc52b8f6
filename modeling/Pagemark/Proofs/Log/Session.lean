/-
  Pagemark.Proofs.Log.Session — the log of a pager tells what every target was answered with.

  A page that is read is told in detail, by the pager, and a token that is refused for its checksum is a
  warning, by the seal; the two come from different depths of the same reading. A target is told of
  once or not at all: the seal says something only when it refuses, and then there is no page for
  the pager to tell of; faults of the size and the sorting come before both, and a token below that
  is no number comes after the checksum was right.

  So under a filter that lets these events through, warnings count the tokens that were refused. What
  is told depends on the answer and on what is told of the request, and not on the secret.

  Proved: `told_resolve` — the events of one target; `events_logged` — of any number of targets, one
  after another; `countP_warnings` — the warnings among them; `log_tells_every_answer` — together.
-/

import Pagemark.Log.Session
import Pagemark.Proofs.Pager.Secret
import Pagemark.Proofs.Settings.Paging

namespace Pagemark

/-! ## Recording -/

/-- A filter of one source decides by the level on the events of that source. -/
theorem Log.Filter.admits_source {source : String} {detail : Detail} {e : Event}
    (h : (Text.after? source.toList e.source.toList).isSome = true) :
    admits [⟨some source, none, none, detail⟩] e = decide (e.level.detail ≤ detail) := by
  have fits : (⟨some source, none, none, detail⟩ : Directive).fits e = true := by
    simp only [Directive.fits, h, Option.all_none, Bool.and_true]
  simp only [admits, List.find?_cons, fits]

namespace Log.Session

theorem filter_record (log : Session) (events : List Event) : (log.record events).filter = log.filter := rfl

/-- Events that the filter lets through are kept, behind those there are. -/
theorem events_record {log : Session} {events : List Event} (h : ∀ e ∈ events, log.filter.admits e = true) :
    (log.record events).events = log.events ++ events := by
  rw [record, List.filter_eq_self.mpr h]

end Log.Session

namespace Pager

/-- The log after some targets were read, one after another. -/
def logged (p : Pager) (log : Log.Session) (targets : List Target) : Log.Session :=
  targets.foldl (fun log t => log.record (p.resolve t).events) log

/-- The events of a run stand one behind the other, in the order of the targets. -/
theorem events_logged {p : Pager} {log : Log.Session} {targets : List Target}
    (h : ∀ t ∈ targets, ∀ e ∈ (p.resolve t).events, log.filter.admits e = true) :
    (p.logged log targets).events = log.events ++ targets.flatMap fun t => (p.resolve t).events := by
  induction targets generalizing log with
  | nil => simp [logged]
  | cons t targets ih =>
    obtain ⟨first, others⟩ := List.forall_mem_cons.mp h
    have step : p.logged log (t :: targets) = p.logged (log.record (p.resolve t).events) targets := rfl
    have later : ∀ t' ∈ targets, ∀ e ∈ (p.resolve t').events, (log.record (p.resolve t).events).filter.admits e = true := by
      rwa [Log.Session.filter_record]
    rw [step, ih later, Log.Session.events_record first, List.flatMap_cons, List.append_assoc]

/-! ## One target -/

/-- What the log says of a target and its answer. -/
inductive Told (p : Pager) (t : Target) : Except PageError Page → List Log.Event → Prop
  /-- The pager tells which page of which path was asked for. -/
  | resolved (page : Page) : Told p t (.ok page)
      [⟨.debug, "cursor_pagination::binder", "Resolved paged request",
        [("path", .text (p.identity t).path), ("page_index", .number page.index.toNat),
          ("page_size", .number page.size.toNat)]⟩]
  /-- The seal warns of what is no checksum, before it knows anything else. -/
  | malformed (parameter : String) : Told p t (.error (.token parameter (.integrity .malformed)))
      [⟨.warn, "cursor_pagination::codec::integrity", "Rejected pagination cursor with malformed checksum",
        [("path", .text (p.identity t).path)]⟩]
  /-- The seal warns of a checksum that is another one, and tells the size it was computed with. -/
  | mismatched (parameter : String) {size : UInt32} (h : p.readSize (t.first p.names.size) = .ok size) :
      Told p t (.error (.token parameter (.integrity .mismatch)))
        [⟨.warn, "cursor_pagination::codec::integrity", "Rejected pagination cursor issued for a different request",
          [("path", .text (p.identity t).path), ("page_size", .number size.toNat)]⟩]
  /-- Nothing is said of any other fault. -/
  | other {e : PageError} (h : e.isIntegrity = false) : Told p t (.error e) []

section Answers

variable {p : Pager} {t : Target} {r : Except PageError Page} {events : List Log.Event}

/-- An answer is told in one way. -/
theorem told_unique {events' : List Log.Event} (h : p.Told t r events) (h' : p.Told t r events') : events = events' := by
  cases h with
  | resolved page =>
    cases h'
    rfl
  | malformed parameter =>
    cases h' with
    | malformed => rfl
    | other h => cases h
  | mismatched parameter hsize =>
    cases h' with
    | mismatched _ hsize' =>
      rw [hsize] at hsize'
      cases hsize'
      rfl
    | other h => cases h
  | other h =>
    cases h' with
    | malformed => cases h
    | mismatched => cases h
    | other => rfl

/-- What is told of an answer does not depend on the secret. -/
theorem told_withSecret (secret : Option String) (h : p.Told t r events) : (p.withSecret secret).Told t r events := by
  cases h with
  | resolved page => exact .resolved (p := p.withSecret secret) page
  | malformed parameter => exact .malformed (p := p.withSecret secret) parameter
  | mismatched parameter hsize => exact .mismatched (p := p.withSecret secret) parameter hsize
  | other h => exact .other h

/-- Whether the answer is that a token was refused for its checksum. -/
def isRefusal : Except PageError Page → Bool
  | .ok _ => false
  | .error e => e.isIntegrity

/-- An answer is told with one warning when a token was refused, and with none otherwise. -/
theorem countP_of_told (h : p.Told t r events) :
    events.countP (fun e => e.level = .warn) = if isRefusal r then 1 else 0 := by
  cases h with
  | resolved page => rfl
  | malformed parameter => rfl
  | mismatched parameter hsize => rfl
  | other h => simp [isRefusal, h]

end Answers

end Pager

/-! ## What is told -/

namespace Codec

/-- What a codec makes of a bookmark of some size, for a request: nothing is said of a page or of a fault
of the token below, and a refusal is one warning. -/
inductive Noted (identity : Identity) (size : UInt32) : Log.Traced (Except TokenError Page) → Prop
  | read (page : Page) : Noted identity size (.quiet (.ok page))
  | fault {cause : TokenError} (h : cause.isIntegrity = false) : Noted identity size (.quiet (.error cause))
  | malformed : Noted identity size ⟨.error (.integrity .malformed), [Seal.malformedEvent identity]⟩
  | mismatched : Noted identity size ⟨.error (.integrity .mismatch), [Seal.mismatchEvent identity size]⟩

theorem isIntegrity_of_readNumber {token : Option String} {cause : TokenError} (h : readNumber token = .error cause) :
    cause.isIntegrity = false := by
  unfold readNumber at h
  split at h
  · cases h
  split at h
  · cases h
  · cases h
    rfl

theorem noted_pageNumber (bookmark : Bookmark) (identity : Identity) :
    Noted identity bookmark.size (pageNumber.decode bookmark identity) := by
  show Noted identity bookmark.size (.quiet ((readNumber bookmark.token).map _))
  cases hread : readNumber bookmark.token with
  | ok index => exact .read ⟨index, bookmark.size, bookmark.sorting⟩
  | error cause => exact .fault (isIntegrity_of_readNumber hread)

/-- The first seal that refuses a token ends the reading, and the seals above it said nothing. -/
theorem noted_stack (stack : Stack) (bookmark : Bookmark) (identity : Identity) :
    Noted identity bookmark.size (stack.codec.decode bookmark identity) := by
  induction stack generalizing bookmark with
  | pageNumber => exact noted_pageNumber bookmark identity
  | sealed lock below ih =>
    show Noted identity bookmark.size ((below.codec.underSeal lock).decode bookmark identity)
    cases htoken : bookmark.token with
    | none =>
      have skipped : (below.codec.underSeal lock).decode bookmark identity = below.codec.decode bookmark identity := by
        simp only [underSeal, htoken]
      rw [skipped]
      exact ih bookmark
    | some token =>
      rw [underSeal_decode_of_token lock below.codec bookmark identity htoken rfl]
      split
      · exact ih { bookmark with token := (Seal.parted token).2 }
      split
      · exact .mismatched
      · exact .malformed
  | shared below ih => exact ih bookmark

end Codec

namespace Pager

theorem isIntegrity_of_bookmark {p : Pager} {t : Target} {e : PageError} (h : p.bookmark t = .error e) :
    e.isIntegrity = false := by
  unfold bookmark at h
  split at h
  · cases h
    rfl
  split at h
  · cases h
    rfl
  · cases h

/-- What the codec makes of the bookmark decides what is told of the target. -/
theorem told_resolve {p : Pager} {stack : Codec.Stack} (hcodec : p.codec = stack.codec) (t : Target) :
    p.Told t (p.resolve t).value (p.resolve t).events := by
  unfold resolve
  cases hbookmark : p.bookmark t with
  | error e => exact .other (isIntegrity_of_bookmark hbookmark)
  | ok bookmark =>
    obtain ⟨-, hsize, -⟩ := p.bookmark_ok t hbookmark
    have noted := Codec.noted_stack stack bookmark (p.identity t)
    rw [← hcodec] at noted
    dsimp only
    generalize p.codec.decode bookmark (p.identity t) = decoded at noted
    cases noted with
    | read page => exact .resolved page
    | fault h => exact .other h
    | malformed => exact .malformed p.names.page
    | mismatched => exact .mismatched p.names.page hsize

/-! ## A run -/

/-- The events of making a pager and of reading targets: all that the library tells in detail, and all
that it warns of. -/
inductive Spoken : Log.Event → Prop
  | configured (s : PagingSettings) : Spoken (configuredEvent s)
  | resolved (identity : Identity) (page : Page) : Spoken (resolvedEvent identity page)
  | malformed (identity : Identity) : Spoken (Seal.malformedEvent identity)
  | mismatched (identity : Identity) (size : UInt32) : Spoken (Seal.mismatchEvent identity size)

theorem spoken_spec {e : Log.Event} (h : Spoken e) :
    (e.source = source ∨ e.source = Seal.source) ∧ (e.level = .debug ∨ e.level = .warn) := by
  cases h with
  | configured s => exact ⟨Or.inl rfl, Or.inl rfl⟩
  | resolved identity page => exact ⟨Or.inl rfl, Or.inl rfl⟩
  | malformed identity => exact ⟨Or.inr rfl, Or.inr rfl⟩
  | mismatched identity size => exact ⟨Or.inr rfl, Or.inr rfl⟩

theorem spoken_of_told {p : Pager} {t : Target} {r : Except PageError Page} {events : List Log.Event}
    (h : p.Told t r events) : ∀ e ∈ events, Spoken e := by
  cases h with
  | resolved page => exact List.forall_mem_singleton.mpr (.resolved (p.identity t) page)
  | malformed parameter => exact List.forall_mem_singleton.mpr (.malformed (p.identity t))
  | mismatched parameter hsize => exact List.forall_mem_singleton.mpr (.mismatched (p.identity t) _)
  | other h => exact List.forall_mem_nil _

/-- As many warnings as refusals. -/
theorem countP_warnings {p : Pager} {targets : List Target}
    (h : ∀ t ∈ targets, p.Told t (p.resolve t).value (p.resolve t).events) :
    (targets.flatMap fun t => (p.resolve t).events).countP (fun e => e.level = .warn)
      = targets.countP fun t => isRefusal (p.resolve t).value := by
  induction targets with
  | nil => rfl
  | cons t targets ih =>
    obtain ⟨first, others⟩ := List.forall_mem_cons.mp h
    rw [List.flatMap_cons, List.countP_append, countP_of_told first, ih others, List.countP_cons, Nat.add_comm]

theorem eq_withSecret_of_ofSettings {s : PagingSettings} {p : Pager} (h : (ofSettings s).value = .ok p)
    {secret : Option String} {q : Pager} (h' : (ofSettings { s with secret }).value = .ok q) : q = p.withSecret secret := by
  obtain ⟨-, rfl⟩ := ofSettings_eq_ok_iff.mp h
  obtain ⟨-, rfl⟩ := ofSettings_eq_ok_iff.mp h'
  rfl

theorem events_ofSettings {s : PagingSettings} {p : Pager} (h : (ofSettings s).value = .ok p) :
    (ofSettings s).events = [configuredEvent s] := by
  unfold ofSettings at h ⊢
  split at h
  · cases h
  · rfl

theorem told_of_made {s : PagingSettings} {p : Pager} (made : (ofSettings s).value = .ok p) (t : Target) :
    p.Told t (p.resolve t).value (p.resolve t).events := by
  obtain ⟨-, rfl⟩ := ofSettings_eq_ok_iff.mp made
  exact told_resolve rfl t

/-- A run starts with the event of the pager. -/
theorem events_logged_of_made {s : PagingSettings} {p : Pager} (made : (ofSettings s).value = .ok p)
    {log : Log.Session} (lets : ∀ e, Spoken e → log.filter.admits e = true) (targets : List Target) :
    (p.logged (log.record (ofSettings s).events) targets).events
      = log.events ++ configuredEvent s :: targets.flatMap fun t => (p.resolve t).events := by
  have own : ∀ e ∈ [configuredEvent s], log.filter.admits e = true :=
    List.forall_mem_singleton.mpr (lets _ (.configured s))
  have others : ∀ t ∈ targets, ∀ e ∈ (p.resolve t).events, (log.record [configuredEvent s]).filter.admits e = true :=
    fun t _ e he => lets e (spoken_of_told (told_of_made made t) e he)
  rw [events_ofSettings made, events_logged others, Log.Session.events_record own, List.append_assoc,
    List.singleton_append]

/-- The log of a pager that settings make, behind its own event, tells of each target in turn what it was
answered with, so that the warnings count the refusals. Under another secret that answers the targets
alike it tells the same; the event of the pager tells whether there is a secret, not which. -/
theorem log_tells_every_answer {s : PagingSettings} {p : Pager} (made : (ofSettings s).value = .ok p)
    {log : Log.Session} (lets : ∀ e, Spoken e → log.filter.admits e = true) (targets : List Target) :
    let told := targets.flatMap fun t => (p.resolve t).events
    (p.logged (log.record (ofSettings s).events) targets).events = log.events ++ configuredEvent s :: told ∧
    (∀ t ∈ targets, p.Told t (p.resolve t).value (p.resolve t).events) ∧
    told.countP (fun e => e.level = .warn) = targets.countP (fun t => isRefusal (p.resolve t).value) ∧
    ∀ (secret : Option String) (q : Pager), (ofSettings { s with secret }).value = .ok q →
      (∀ t ∈ targets, (q.resolve t).value = (p.resolve t).value) →
      (q.logged (log.record (ofSettings { s with secret }).events) targets).events
          = log.events ++ configuredEvent { s with secret } :: told ∧
        (secret.isSome = s.secret.isSome → configuredEvent { s with secret } = configuredEvent s) := by
  intro told
  have all : ∀ t ∈ targets, p.Told t (p.resolve t).value (p.resolve t).events := fun t _ => told_of_made made t
  refine ⟨events_logged_of_made made lets targets, all, countP_warnings all, ?_⟩
  intro secret q made' same
  have hq : q = p.withSecret secret := eq_withSecret_of_ofSettings made made'
  have events : (targets.flatMap fun t => (q.resolve t).events) = told := by
    refine List.flatMap_congr fun t ht => ?_
    have told' := told_withSecret secret (all t ht)
    rw [← hq, ← same t ht] at told'
    exact told_unique (told_of_made made' t) told'
  refine ⟨?_, ?_⟩
  · rw [events_logged_of_made made' lets targets, events]
  · intro hsome
    simp [configuredEvent, hsome]

/-- A page, a token that is none and a size that is none, under two secrets. -/
theorem log_tells_two_of_three_answers :
    let s : PagingSettings := { secret := some "one" }
    let p : Pager := standard.withSecret (some "one")
    let q : Pager := standard.withSecret (some "two")
    let log : Log.Session := ⟨.ofSetting "cursor_pagination=debug", []⟩
    let targets : List Target := [⟨"/items", [("size", "2")]⟩, ⟨"/items", [("page", "x")]⟩, ⟨"/items", [("size", "0")]⟩]
    (ofSettings s).value = .ok p ∧ (∀ e, Spoken e → log.filter.admits e = true) ∧
      (ofSettings { s with secret := some "two" }).value = .ok q ∧
      (∀ t ∈ targets, (q.resolve t).value = (p.resolve t).value) ∧
      (p.logged (log.record (ofSettings s).events) targets).events.map (·.level) = [.debug, .debug, .warn] ∧
      (q.logged (log.record (ofSettings { s with secret := some "two" }).events) targets).events
        = (p.logged (log.record (ofSettings s).events) targets).events := by
  intro s p q log targets
  have made : (ofSettings s).value = .ok p :=
    ofSettings_eq_ok_iff.mpr ⟨PagingSettings.fault?_eq_none_iff.mp (by decide), rfl⟩
  have made' : (ofSettings { s with secret := some "two" }).value = .ok q :=
    ofSettings_eq_ok_iff.mpr ⟨PagingSettings.fault?_eq_none_iff.mp (by decide), rfl⟩
  have lets : ∀ e, Spoken e → log.filter.admits e = true := by
    have hfilter : log.filter = [⟨some "cursor_pagination", none, none, 4⟩] := by decide
    have own : (Text.after? "cursor_pagination".toList source.toList).isSome = true := by decide
    have ofSeal : (Text.after? "cursor_pagination".toList Seal.source.toList).isSome = true := by decide
    intro e h
    obtain ⟨hsource, hlevel⟩ := spoken_spec h
    have within : (Text.after? "cursor_pagination".toList e.source.toList).isSome = true := by
      rcases hsource with hsource | hsource
      · rw [hsource]
        exact own
      · rw [hsource]
        exact ofSeal
    rw [hfilter, Log.Filter.admits_source within]
    rcases hlevel with hlevel | hlevel
    · rw [hlevel]
      rfl
    · rw [hlevel]
      rfl
  have unchecked : ∀ t ∈ targets, standard.Unchecked t := by
    refine List.forall_mem_cons.mpr ⟨.absent rfl, List.forall_mem_cons.mpr ⟨?_, List.forall_mem_singleton.mpr ?_⟩⟩
    · have unopened : ¬ Seal.Opens "x" := by
        rw [Seal.opens_iff]
        decide
      exact .unformed rfl unopened
    · have fault : standard.readSize (some "0") = .error (.notPositive 0) := rfl
      exact .size fault
  have same : ∀ t ∈ targets, (q.resolve t).value = (p.resolve t).value := fun t ht =>
    congrArg Log.Traced.value (resolve_withSecret_of_unchecked _ _ (unchecked t ht))
  obtain ⟨run, -, -, others⟩ := log_tells_every_answer made lets targets
  obtain ⟨run', own⟩ := others (some "two") q made' same
  refine ⟨made, lets, made', same, ?_, ?_⟩
  · rw [run]
    rfl
  · rw [run, run', own rfl]

end Pager

end Pagemark
