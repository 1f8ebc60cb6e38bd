import StellarAlerts.RegistryEffects
import Mathlib.Data.List.Nodup

/-!
Wallets and subscriptions of the registry.
-/
namespace StellarAlerts.AlertRegistry
open Histories

def Call.user : Call → Option Address
  | .register_listener user _ _ => some user
  | .register_wallet user _ => some user
  | .subscribe user _ => some user
  | .unsubscribe user _ _ => some user
  | _ => none

/-- Wallet lists have no repetitions, and every subscription is filed under its
    own wallet and channel, for a wallet that its user has registered. -/
structure Integrity (s : Storage) : Prop where
  distinct : ∀ user, (get_wallets s user).Nodup
  filed : ∀ user wallet channel record, get_subscription s user wallet channel = some record →
    record.wallet = wallet ∧ record.channel = channel
  registered : ∀ user wallet channel record, get_subscription s user wallet channel = some record →
    wallet ∈ get_wallets s user

theorem effect_wallets {s s' : Storage} {auths : List Address} {call : Call} {answer : Answer}
    (effect : Effect s auths call answer s') (user : Address) :
    get_wallets s' user = get_wallets s user ∨
    (∃ wallet, call = .register_wallet user wallet ∧ user ∈ auths ∧ wallet ∉ get_wallets s user ∧
      get_wallets s' user = get_wallets s user ++ [wallet]) := by
  by_cases touched : .wallets user ∈ call.writes s
  · cases effect with
    | register_known_wallet => exact .inl rfl
    | register_new_wallet auth fresh =>
      rename_i owner wallet
      obtain rfl : user = owner := by simpa [Call.writes] using touched
      refine .inr ⟨wallet,rfl,auth,fresh,?_⟩
      rw [get_wallets,set_self]
      rfl
    | approve_proposal _ _ found => simp [Call.writes,found] at touched
    | _ => simp [Call.writes] at touched
  · exact .inl (by rw [get_wallets,effect_frame effect touched,get_wallets])

/-- A call changes a subscription only by storing one under its own key for a
    registered wallet, or by removing it, with the user's authorisation. -/
theorem effect_subscription {s s' : Storage} {auths : List Address} {call : Call} {answer : Answer}
    (effect : Effect s auths call answer s') (user wallet : Address) (channel : Symbol) :
    get_subscription s' user wallet channel = get_subscription s user wallet channel ∨
    (∃ record, call = .subscribe user record ∧ user ∈ auths ∧ record.wallet = wallet ∧ record.channel = channel ∧
      wallet ∈ get_wallets s user ∧ get_subscription s' user wallet channel = some record) ∨
    (call = .unsubscribe user wallet channel ∧ user ∈ auths ∧ get_subscription s' user wallet channel = none) := by
  by_cases touched : .subs user wallet channel ∈ call.writes s
  · cases effect with
    | subscribe auth known =>
      rename_i owner record
      obtain ⟨rfl,rfl,rfl⟩ : user = owner ∧ wallet = record.wallet ∧ channel = record.channel := by
        simpa [Call.writes] using touched
      exact .inr (.inl ⟨record,rfl,auth,rfl,rfl,known,set_self ..⟩)
    | unsubscribe auth =>
      rename_i owner wallet' channel' _
      obtain ⟨rfl,rfl,rfl⟩ : user = owner ∧ wallet = wallet' ∧ channel = channel' := by
        simpa [Call.writes] using touched
      exact .inr (.inr ⟨rfl,auth,remove_self ..⟩)
    | approve_proposal _ _ found => simp [Call.writes,found] at touched
    | _ => simp [Call.writes] at touched
  · exact .inl (effect_frame effect touched)

theorem integrity_empty : Integrity Storage.empty := by
  constructor
  · intro user; exact List.nodup_nil
  · intro user wallet channel record found; cases found
  · intro user wallet channel record found; cases found

theorem integrity_step (s : Storage) (invocation : Invocation) (ok : Integrity s) :
    Integrity (step s invocation).2 := by
  rcases step_cases s invocation with ⟨fault,failed⟩ | ⟨answer,events,_,effect⟩
  · rw [failed]; exact ok
  -- Wallets are only added, so that subscriptions stay within the list.
  have grows : ∀ user, ∀ wallet ∈ get_wallets s user, wallet ∈ get_wallets (step s invocation).2 user := by
    intro user wallet listed
    rcases effect_wallets effect user with same | ⟨_,_,_,_,added⟩
    · rw [same]; exact listed
    · rw [added]; exact List.mem_append_left _ listed
  constructor
  · intro user
    rcases effect_wallets effect user with same | ⟨wallet,_,_,fresh,added⟩
    · rw [same]; exact ok.distinct user
    · rw [added]
      exact (ok.distinct user).append (List.nodup_singleton _) (by simpa using fresh)
  · intro user wallet channel record found
    rcases effect_subscription effect user wallet channel with same | ⟨stored,_,_,walletIs,channelIs,_,now⟩ | ⟨_,_,gone⟩
    · exact ok.filed user wallet channel record (same ▸ found)
    · obtain rfl := Option.some.inj (now.symm.trans found)
      exact ⟨walletIs,channelIs⟩
    · rw [gone] at found
      cases found
  · intro user wallet channel record found
    rcases effect_subscription effect user wallet channel with same | ⟨stored,_,_,_,_,known,_⟩ | ⟨_,_,gone⟩
    · exact grows user wallet (ok.registered user wallet channel record (same ▸ found))
    · exact grows user wallet known
    · rw [gone] at found
      cases found

/-- In every reachable state wallets and subscriptions are sound, and an invocation that does not act for a user leaves its wallets and
    subscriptions alone. -/
theorem subscriptions_integrity (invocations : List Invocation) :
    Integrity (run step Storage.empty invocations) ∧
    ∀ t ∈ history step Storage.empty invocations, ∀ user,
      ¬ (t.input.call.user = some user ∧ user ∈ t.input.auths) →
        get_wallets t.after user = get_wallets t.before user ∧
        ∀ wallet channel, get_subscription t.after user wallet channel = get_subscription t.before user wallet channel := by
  refine ⟨run_inv integrity_step integrity_empty invocations,?_⟩
  intro t member user foreign
  obtain ⟨before,invocation,rfl⟩ := mem_history member
  simp only [transition] at foreign ⊢
  rcases step_cases (run step Storage.empty before) invocation with ⟨fault,failed⟩ | ⟨answer,events,_,effect⟩
  · rw [failed]
    exact ⟨rfl,fun _ _ => rfl⟩
  refine ⟨?_,?_⟩
  · rcases effect_wallets effect user with same | ⟨_,called,auth,_⟩
    · exact same
    · exact absurd ⟨by rw [called]; rfl,auth⟩ foreign
  · intro wallet channel
    rcases effect_subscription effect user wallet channel with same | ⟨_,called,auth,_⟩ | ⟨called,auth,_⟩
    · exact same
    · exact absurd ⟨by rw [called]; rfl,auth⟩ foreign
    · exact absurd ⟨by rw [called]; rfl,auth⟩ foreign

end StellarAlerts.AlertRegistry
