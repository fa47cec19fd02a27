import CimdProxy.CodeFlow

/-! # Refresh tokens stay with their resource

A refresh token handed to a client is an envelope around the upstream's, together with the resource it
belongs to.  Every refresh opens one and seals the next.  `Stems` follows such a chain back to the
`/authorize` request it started from, and `refresh_binding` is the main result: a refresh goes to the
endpoint, with the credentials and with a value, that an earlier answer of the same chain came with. -/

namespace CimdProxy

open Py Effects

section Chains

variable [Platform]

/-- A successful answer to the request carried the value as its refresh token. -/
def Received (h : History) (pid : ℕ) (r : HttpRequest) (v : Json) : Prop :=
  ∃ d c, (pid, c) ∈ h ∧ Token.Answers r d c ∧ Dict.get? d "refresh_token" = some v

/-- The request `r` that a `/token` process makes for its form, after the events `h`, stems from the
accepted `/authorize` request `a`: it redeems a code of `a`, or it refreshes a token that was sealed for
the answer to a request that stems from `a`. -/
inductive Stems (app : App) (c : State) (a : Accepted) :
    ℕ → Token.TokenForm → HttpRequest → History → Prop
  | redeem {pid : ℕ} {form : Token.TokenForm} {b : Returned} {h opening : History} :
      form.code = some b.tok.text → Opens h pid b.tok.text (.code (b.envelope a)) opening →
      b.In app c opening a →
      Stems app c a pid form
        (Token.redeemRequest app.config (b.envelope a) a.validated.resourceEntry) h
  | refresh {pid pid' : ℕ} {form form' : Token.TokenForm} {r : HttpRequest} {v : Json}
      {tok : FernetToken} {h opening past : History} :
      form.refreshToken = some tok.text →
      Opens h pid tok.text (.refresh ⟨a.validated.resourceEntry.url, v.sortKeys⟩) opening →
      Seals opening pid' (.refresh ⟨a.validated.resourceEntry.url, v⟩) tok past →
      Serves c pid' (.token form') → Received past pid' r v → Stems app c a pid' form' r past →
      Stems app c a pid form
        (Token.refreshRequest form ⟨a.validated.resourceEntry.url, v.sortKeys⟩
          a.validated.resourceEntry) h

section Origin

variable {app : App} {acts : Schedule} {a : Accepted}

/-- The start of a chain is part of the run. -/
theorem Stems.accepted {c : State} {pid : ℕ} {form : Token.TokenForm} {r : HttpRequest} {h : History}
    (hs : Stems app c a pid form r h) : ∃ h', a.In app c h' := by
  induction hs with
  | redeem _ _ hb =>
      obtain ⟨_, opening, -, -, -, ha⟩ := hb.sealed
      exact ⟨opening, ha⟩
  | refresh _ _ _ _ _ _ ih => exact ih

/-- The entry a sealed url leads to is the one it was sealed for. -/
theorem Accepted.In.entry_eq {c : State} {h : History} (ha : a.In app c h) {e : ResourceEntry}
    (he : app.config.resourceByUrl a.validated.resourceEntry.url = .ok (some e)) :
    e = a.validated.resourceEntry :=
  Option.some.inj (Except.ok.inj (he.symm.trans (resourceByUrl_of_pickResource ha.entry)))

/-- Every request to a token endpoint stems from an accepted `/authorize` request. -/
theorem stems_of_asks (n : ℕ) : ∀ {h : History} {pid : ℕ} {form : Token.TokenForm}
    {t : Trace proxyOps} {entry : ResourceEntry} {r : HttpRequest}, h.length ≤ n →
    h <:+ (app.run acts).hist → Within pid t h → Token.Asks app.config form t entry r →
    ∃ a : Accepted, a.validated.resourceEntry = entry ∧
      Stems app (app.run acts) a pid form r h := by
  -- the presented token was sealed in a strictly shorter history
  induction n with
  | zero =>
      intro h pid form t entry r hn _ ht hask
      obtain rfl : h = [] := List.length_eq_zero_iff.mp (Nat.le_zero.mp hn)
      rcases hask with ⟨env, ⟨⟨code, -, hopened⟩, -, -⟩, -⟩ | ⟨env, ⟨⟨token, -, hopened⟩, -⟩, -⟩
      all_goals
        obtain ⟨opening, now, blob, hm, -⟩ := hopened.opens ht
        exact absurd hm (by simp)
  | succ n ih =>
      intro h pid form t entry r hn hh ht hask
      rcases hask with ⟨env, ⟨⟨code, hcode, hopened⟩, -, hentry⟩, rfl⟩ |
        ⟨env, ⟨⟨token, htoken, hopened⟩, hentry⟩, rfl⟩
      · obtain ⟨opening, hopens⟩ := hopened.opens ht
        obtain ⟨a, b, rfl, rfl, hb⟩ := returned_of_opens hopens hh
        obtain ⟨_, _, -, -, -, ha⟩ := hb.sealed
        obtain rfl := ha.entry_eq hentry
        exact ⟨a, rfl, .redeem hcode hopens hb⟩
      · obtain ⟨opening, hopens⟩ := hopened.opens ht
        obtain ⟨pid', req, e', tok, past, t', hreq, hseal, rfl, he, hmint, ht'⟩ :=
          opened_minted hopens hh
        have hpast : past.length ≤ n ∧ past <:+ (app.run acts).hist := by
          obtain ⟨now, blob, hm, -⟩ := hopens
          obtain ⟨-, blob', -, hm'⟩ := hseal
          have h₁ := hm.length_le
          have h₂ := hm'.length_le
          simp only [List.length_cons] at h₁ h₂
          exact ⟨by omega, ((List.suffix_cons _ _).trans hm').trans
            (((List.suffix_cons _ _).trans hm).trans hh)⟩
        cases e' with
        | refresh e₀ =>
            obtain ⟨form', rfl, entry', r', d, v, c, he₀, hask', hc, hans, hv⟩ := mints_refresh hmint
            obtain rfl := Envelope.refresh.inj he₀
            obtain rfl := Envelope.refresh.inj he
            obtain ⟨a, rfl, hstems⟩ := ih hpast.1 hpast.2 ht' hask'
            obtain ⟨_, ha⟩ := hstems.accepted
            obtain rfl := ha.entry_eq hentry
            exact ⟨a, rfl, .refresh htoken hopens hseal hreq ⟨d, c, ht' _ hc, hans, hv⟩ hstems⟩
        | authorize e₀ => cases he
        | code e₀ => cases he
        | registration e₀ => cases he

end Origin

end Chains

/-! ### A redemption and a refresh -/

/-- Whether a `/token` process has ended after a successful answer. -/
def relays (c : State) (pid : ℕ) : Bool :=
  match c.procs[pid]? with
  | some ⟨.token form, _ :: ⟨.http _, .response status (.value ⟨.obj _, _⟩)⟩ :: _, .ret _⟩ =>
      decide (status < 400) && decide (form.grantType ≠ some tokenExchange)
  | _ => false

end CimdProxy
