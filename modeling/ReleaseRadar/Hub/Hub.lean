import Mathlib.Logic.Function.Basic
import ReleaseRadar.Api.Json

/-!
# The hub

`backend/internal/hub/hub.go`. `heap` holds every `*Client` that was ever made, a
pointer being its index; the registry (`clients`) is the set of pointers, and
`counts` the map beside it, `none` being an absent key. `rev` is the atomic counter.

`Broadcast` is three operations here, because it is not atomic: the revision is
assigned before the mutex is taken (`nextRev`), and under the mutex the clients are
sent to one by one (`offer`), while their write pumps go on receiving (`receive`).
`Register` and `Unregister` run under the mutex as a whole.
-/

namespace ReleaseRadar

namespace Hub

/-- The server→client live-update message. -/
structure Event where
  entity : String
  id : String
  action : String
  rev : Int
deriving DecidableEq, Repr

/-- What `wsjson.Write` sends. -/
def Event.toJson (ev : Event) : Json :=
  .obj [("entity", .str ev.entity), ("id", .str ev.id), ("action", .str ev.action),
    ("rev", .num ev.rev)]

/-- A single connected consumer: what is in its channel, oldest first. -/
structure Client where
  send : List Event
  user : String
deriving DecidableEq, Repr

end Hub

structure Hub where
  heap : List Hub.Client
  clients : List Nat
  counts : String → Option Int
  rev : Int

namespace Hub

/-- The per-client send-channel capacity. -/
def clientBuffer : Nat := 32

/-- The cap on concurrent connections of one user. -/
def maxPerUser : Int := 8

def new : Hub := ⟨[], [], fun _ => none, 0⟩

/-- `h.counts[userID]`, 0 when the key is absent. -/
def count (h : Hub) (userID : String) : Int := (h.counts userID).getD 0

def register (h : Hub) (userID : String) : Option Nat × Hub :=
  if maxPerUser ≤ h.count userID then (none, h)
  else (some h.heap.length, { h with
    heap := h.heap ++ [⟨[], userID⟩]
    clients := h.clients ++ [h.heap.length]
    counts := Function.update h.counts userID (some (h.count userID + 1)) })

/-- `c.user`. -/
def userOf (h : Hub) (c : Nat) : String := ((h.heap[c]?).map Client.user).getD ""

def unregister (h : Hub) (c : Nat) : Hub :=
  if c ∈ h.clients then
    let left := h.count (h.userOf c) - 1
    { h with
      clients := h.clients.filter (fun d => d ≠ c)
      counts := Function.update h.counts (h.userOf c) (if left ≤ 0 then none else some left) }
  else h

/-- `h.rev.Add(1)`. -/
def nextRev (h : Hub) : Int := h.rev + 1

/-- What is in the client's channel. -/
def chan (h : Hub) (c : Nat) : List Event := ((h.heap[c]?).map Client.send).getD []

/-- The client's buffer is full. -/
def Full (h : Hub) (c : Nat) : Prop := clientBuffer ≤ (h.chan c).length

instance (h : Hub) (c : Nat) : Decidable (h.Full c) := inferInstanceAs (Decidable (_ ≤ _))

/-- The non-blocking send: a full buffer drops the event. -/
def offer (h : Hub) (c : Nat) (ev : Event) : Hub :=
  if h.Full c then h
  else { h with heap := h.heap.modify c fun cl => { cl with send := cl.send ++ [ev] } }

/-- The write pump's `<-client.Send`: the channel without its first event. -/
def receive (h : Hub) (c : Nat) : Hub :=
  { h with heap := h.heap.modify c fun cl => { cl with send := cl.send.tail } }

/-! ## The channels -/

section Channels

variable {h : Hub} {c d : Nat} {ev : Event}

/-- A new client's channel is empty, and the others are untouched. -/
theorem chan_register (u : String) : (h.register u).2.chan c = h.chan c := by
  unfold register
  split
  · rfl
  · show (((h.heap ++ [⟨[], u⟩])[c]?).map Client.send).getD [] = h.chan c
    unfold chan
    rcases Nat.lt_trichotomy c h.heap.length with hlt | heq | hgt
    · rw [List.getElem?_append_left hlt]
    · subst heq
      simp
    · rw [List.getElem?_eq_none (by simp; omega), List.getElem?_eq_none (by omega)]

/-- Unregistering leaves every channel. -/
@[simp] theorem chan_unregister : (h.unregister c).chan d = h.chan d := by
  unfold unregister
  split <;> rfl

/-- Only the channel of the client is touched. -/
theorem chan_modify (f : Client → Client) (hne : c ≠ d) :
    Hub.chan { h with heap := h.heap.modify c f } d = h.chan d := by
  simp only [chan, List.getElem?_modify, if_neg hne, id_map']

/-- An offer makes no client. -/
@[simp] theorem offer_length : (h.offer c ev).heap.length = h.heap.length := by
  unfold offer
  split
  · rfl
  · exact List.length_modify _ _ _

/-- It reaches no other channel. -/
theorem chan_offer_ne (hne : c ≠ d) : (h.offer c ev).chan d = h.chan d := by
  unfold offer
  split
  · rfl
  · exact chan_modify _ hne

/-- A full channel drops the event. -/
theorem chan_offer_full (hfull : h.Full c) : h.offer c ev = h := if_pos hfull

/-- An event that is not dropped is at the end of the channel. -/
theorem chan_offer_self (hc : c < h.heap.length) (hroom : ¬h.Full c) :
    (h.offer c ev).chan c = h.chan c ++ [ev] := by
  unfold offer
  rw [if_neg hroom]
  simp only [chan, List.getElem?_modify_eq, List.getElem?_eq_getElem hc, Option.map_eq_map,
    Option.map_some, Option.getD_some]

/-- A pump receives from its own channel. -/
theorem chan_receive_ne (hne : c ≠ d) : (h.receive c).chan d = h.chan d := chan_modify _ hne

/-- It takes the oldest event. -/
theorem chan_receive_self : (h.receive c).chan c = (h.chan c).tail := by
  unfold receive chan
  cases hcl : h.heap[c]? with
  | none => simp [List.getElem?_modify_eq, hcl]
  | some cl => simp [List.getElem?_modify_eq, hcl]

/-- An offer puts nothing else into any channel. -/
theorem mem_chan_offer {ev' : Event} (hmem : ev' ∈ (h.offer c ev).chan d) :
    ev' = ev ∨ ev' ∈ h.chan d := by
  by_cases hfull : h.Full c
  · rw [chan_offer_full hfull] at hmem
    exact Or.inr hmem
  · by_cases hcd : c = d
    · subst hcd
      by_cases hc : c < h.heap.length
      · rw [chan_offer_self hc hfull] at hmem
        rcases List.mem_append.mp hmem with hold | hnew
        · exact Or.inr hold
        · exact Or.inl (List.mem_singleton.mp hnew)
      · -- a pointer that was never made has no channel
        have hnone : (h.offer c ev).chan c = [] := by
          rw [chan, List.getElem?_eq_none (by rw [offer_length]; omega)]
          rfl
        rw [hnone] at hmem
        cases hmem
    · rw [chan_offer_ne hcd] at hmem
      exact Or.inr hmem

/-- What is left was there before. -/
theorem mem_chan_receive (hmem : ev ∈ (h.receive c).chan d) : ev ∈ h.chan d := by
  by_cases hcd : c = d
  · subst hcd
    rw [chan_receive_self] at hmem
    exact List.mem_of_mem_tail hmem
  · rwa [chan_receive_ne hcd] at hmem

end Channels

/-! ## The registry -/

section Registry

variable {h : Hub} {c d : Nat} {u : String}

/-- `Register` succeeds exactly when the user is below the cap, and returns a client that
was never made before. -/
theorem register_some {p : Nat} {h' : Hub} (hr : h.register u = (some p, h')) :
    h.count u < maxPerUser ∧ p = h.heap.length ∧ h'.clients = h.clients ++ [p] ∧
      h'.heap = h.heap ++ [⟨[], u⟩] ∧ h'.rev = h.rev := by
  unfold register at hr
  split at hr
  · cases hr
  · next hcap =>
    cases hr
    exact ⟨Int.not_le.mp hcap, rfl, rfl, rfl, rfl⟩

/-- A client that is turned away changes nothing. -/
theorem register_none {h' : Hub} (hr : h.register u = (none, h')) : h' = h := by
  unfold register at hr
  split at hr
  · cases hr
    rfl
  · cases hr

/-- Others stay registered. -/
theorem mem_unregister (hne : d ≠ c) (hd : d ∈ h.clients) : d ∈ (h.unregister c).clients := by
  unfold unregister
  split
  · exact List.mem_filter.mpr ⟨hd, decide_eq_true hne⟩
  · exact hd

/-- Nobody is added. -/
theorem unregister_subset : (h.unregister c).clients ⊆ h.clients := by
  unfold unregister
  split
  · exact List.filter_sublist.subset
  · exact List.Subset.refl _

@[simp] theorem unregister_heap : (h.unregister c).heap = h.heap := by
  unfold unregister
  split <;> rfl

@[simp] theorem unregister_rev : (h.unregister c).rev = h.rev := by
  unfold unregister
  split <;> rfl

/-- An offer registers nobody. -/
@[simp] theorem offer_clients {ev : Event} : (h.offer c ev).clients = h.clients := by
  unfold offer
  split <;> rfl

@[simp] theorem offer_rev {ev : Event} : (h.offer c ev).rev = h.rev := by
  unfold offer
  split <;> rfl

@[simp] theorem receive_length : (h.receive c).heap.length = h.heap.length :=
  List.length_modify _ _ _

end Registry

end Hub

end ReleaseRadar
