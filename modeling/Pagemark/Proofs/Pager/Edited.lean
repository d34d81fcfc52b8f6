/-
  Pagemark.Proofs.Pager.Edited — targets that were edited are read back from their text.

  A target is received, or made of a path, and then edited any number of times: parameters are
  added, parameters are taken out, and pages are written into it by pagers of any kind. No edit
  touches the path, and what a settled target's text says about its pairs does not depend on
  what the pairs are, so settled targets stay settled, and are read back.

  Proved: `settled_apply` — one edit keeps a target settled; `settled_edited` — so do many;
  `parse_text_edited` — the text is read as the target, whatever names and values it holds.
-/

import Pagemark.Proofs.Pager.Link
import Pagemark.Proofs.Target

namespace Pagemark

/-- What is done to a target. -/
inductive Edit
  | add (name value : String)
  | without (names : List String)
  | link (p : Pager) (page : Page)

def Edit.apply : Edit → Target → Target
  | .add name value, t => t.add name value
  | .without names, t => t.without names
  | .link p page, t => p.link page t

namespace Target

/-- The target after the edits, first to last. -/
def edited (t : Target) (edits : List Edit) : Target := edits.foldl (fun t e => e.apply t) t

/-- How targets begin: received in some way, or made of a path that marks neither a query nor a
fragment. -/
inductive Started : Target → Prop
  | received {t : Target} (h : t.Received) : Started t
  | ofPath {path : String} (h : Url.Unmarked path.toList) : Started (.ofPath path)

theorem settled_of_started {t : Target} (h : t.Started) : t.Settled := by
  cases h with
  | received h => exact settled_of_received h
  | ofPath h => exact settled_of_normalPath h []

theorem settled_of_path_eq {t t' : Target} (h : t.Settled) (hpath : t'.path = t.path) : t'.Settled := by
  refine ⟨?_, ?_⟩
  · rw [hpath]; exact h.path
  · rw [hpath]; exact h.unmarked

/-- One edit keeps a target settled. -/
theorem settled_apply {t : Target} (h : t.Settled) (e : Edit) : (e.apply t).Settled := by
  cases e with
  | add name value => exact settled_of_path_eq h rfl
  | without names => exact settled_of_path_eq h rfl
  | link p page => exact settled_of_path_eq h rfl

/-- Many edits do so. -/
theorem settled_edited {t : Target} (h : t.Settled) (edits : List Edit) : (t.edited edits).Settled := by
  induction edits generalizing t with
  | nil => exact h
  | cons e edits ih => exact ih (settled_apply h e)

/-- However a target began and whatever was done to it, its text is read as the target: the same path,
which resolving leaves as it is, the same pairs in the same order, and so the same identity, whatever
names are left out of account. -/
theorem parse_text_edited {start : Target} (started : start.Started) (edits : List Edit) :
    let t := start.edited edits
    parse t.text = t ∧ normalPath t.path = t.path ∧ ∀ names, (parse t.text).identity names = t.identity names := by
  intro t
  have settled : t.Settled := settled_edited (settled_of_started started) edits
  have read : parse t.text = t := parse_text settled
  refine ⟨read, settled.path, fun names => ?_⟩
  rw [read]

/-- A URL with dots, a backslash and an escape in its path, and pairs that hold every separator. -/
theorem parse_text_edited_separators :
    let url : Url := ⟨"http", some ⟨"", none, .name "h", none⟩, "/a/c%20/", some "q=1&page=0&&=&q=%26", none⟩
    let edits : List Edit := [.add "" "", .add "&=+%#? \u00e9" "\u0000&=", .without ["q"],
      .link Pager.standard ⟨7, 20, [⟨"a,b", .descending⟩]⟩, .add "page" "x"]
    Url.parse "http://h/a\\b/..\\%2E/c%20/.?q=1&page=0&&=&q=%26" = .ok url ∧ (ofUrl url).Started ∧
      parse ((ofUrl url).edited edits).text = (ofUrl url).edited edits := by
  intro url edits
  have read : Url.parse "http://h/a\\b/..\\%2E/c%20/.?q=1&page=0&&=&q=%26" = .ok url := rfl
  have started : (ofUrl url).Started := .received (.ofUrl (Url.bounded_of_read (.parse read)))
  exact ⟨read, started, (parse_text_edited started edits).1⟩

end Target

end Pagemark
