import Switchboard.Proofs.Network.Event

/-!
# The journal only grows

What has been put down stays where it is: entries are added at one end and
none is taken back, whatever a step is about.
-/
namespace Switchboard.Network

variable {κ ν ρ σ : Type}

theorem journal_write (network : Network κ ν ρ σ) (entries : List ρ) :
    network.journal <:+ (network.write entries).journal :=
  List.suffix_append _ _

theorem journal_feed (network : Network κ ν ρ σ) (n leaf : Nat) (incoming : Option ν) :
    network.journal <:+ (network.feed n leaf incoming).1.journal := by
  unfold feed
  split
  · exact List.suffix_rfl
  · split
    · exact List.suffix_rfl
    · exact List.suffix_append _ _

variable [DecidableEq κ]

theorem journal_detach (network : Network κ ν ρ σ) (registrations : List (Registration κ)) :
    (network.detach registrations).journal = network.journal := by
  induction registrations generalizing network with
  | nil => rfl
  | cons registration rest ih => exact ih (network.detachOne registration)

theorem journal_step (network : Network κ ν ρ σ) (stack : List (Frame κ ν ρ σ)) :
    network.journal <:+ (network.step stack).1.journal := by
  cases stack with
  | nil => exact List.suffix_rfl
  | cons frame rest =>
    cases frame with
    | script script =>
      cases script with
      | done => exact List.suffix_rfl
      | record entry next => exact network.journal_write [entry]
      | change f next => exact List.suffix_rfl
      | consult next => exact List.suffix_rfl
      | publish key value next =>
        rw [step, stepScript]
        split <;> exact List.suffix_rfl
      | subscribe stream listener next => exact List.suffix_rfl
      | detach registrations next =>
        exact (network.journal_detach registrations).symm ▸ List.suffix_rfl
    | fanOut key value waiting audience next =>
      cases waiting with
      | cons listener waiting => exact network.journal_feed listener.1 listener.2 (some value)
      | nil =>
        rw [step]
        split <;> exact List.suffix_rfl
    | opening n leaf leaves next =>
      cases leaves with
      | nil => exact List.suffix_rfl
      | cons first leaves =>
        cases first with
        | own => exact network.journal_feed n leaf none
        | subject key =>
          rw [step]
          split
          · exact journal_feed (network.setSubject key _) n leaf _
          · exact List.suffix_rfl

theorem Run.journal {network last : Network κ ν ρ σ} {stack final : List (Frame κ ν ρ σ)}
    {es : List (Event κ ν)} (run : Run network stack es last final) :
    network.journal <:+ last.journal := by
  induction run with
  | still => exact List.suffix_rfl
  | @step network next _ frame rest _ _ _ here _ ih =>
    have grown := network.journal_step (frame :: rest)
    rw [here] at grown
    exact grown.trans ih

end Switchboard.Network
