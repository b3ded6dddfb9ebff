/-
# Servers: many connections, one component

A server reads messages off the byte streams of its connections, and handles
each of them while it holds the lock on the one component behind all of them.
Bytes arrive in whatever segments the network makes of them, and the threads
of the connections take their turns in any order (`ServerEvent`).

A `Framing` says when the bytes that have arrived are a message; bytes that
arrive later do not change what was read. The messages that were handled, in
the order in which the lock was taken, are a run of the component
(`Server.run_serial`). Those of one connection are read off the bytes it
received, however they were cut, and what it was sent is the replies to them,
in order (`Server.run_connection`).

A panic while the lock is held poisons it: nothing is handled after that.

Key definitions: `Framing`, `Server`, `Server.step`, `Server.serialStep`.
-/
import Mathlib.Data.List.Forall2
import Mathlib.Data.List.ReduceOption
import Mathlib.Logic.Function.Basic
import Simulators.Lib.Bytes
import Simulators.Lib.Run

namespace Simulators

/-! ### Framings -/

/-- What the bytes that have arrived amount to. -/
inductive Arrival (μ : Type)
  /-- More bytes are needed. -/
  | waits
  | message (m : μ) (rest : Bytes)
  /-- The connection cannot go on. -/
  | fails
deriving DecidableEq, Repr

/-- Messages on a stream of bytes. -/
structure Framing (μ : Type) where
  next : Bytes → Arrival μ
  shorter : ∀ {b rest : Bytes} {m : μ}, next b = .message m rest → rest.length < b.length
  message_append : ∀ {b rest : Bytes} {m : μ} (c : Bytes), next b = .message m rest →
    next (b ++ c) = .message m (rest ++ c)
  fails_append : ∀ {b : Bytes} (c : Bytes), next b = .fails → next (b ++ c) = .fails

namespace Framing

variable {μ : Type} {F : Framing μ} {b b' b'' : Bytes} {ms ns : List μ} {m : μ}

/-- The first messages of a stream, and the bytes after them. -/
inductive Parses (F : Framing μ) : Bytes → List μ → Bytes → Prop
  | nil (b : Bytes) : Parses F b [] b
  | cons {b rest b' : Bytes} {m : μ} {ms : List μ} (h : F.next b = .message m rest) (hr : Parses F rest ms b') :
      Parses F b (m :: ms) b'

theorem Parses.append (h : F.Parses b ms b') (h' : F.Parses b' ns b'') : F.Parses b (ms ++ ns) b'' := by
  induction h with
  | nil _ => exact h'
  | cons hm _ ih => exact .cons hm (ih h')

/-- Bytes that arrive later leave the messages as they are. -/
theorem Parses.extend (c : Bytes) (h : F.Parses b ms b') : F.Parses (b ++ c) ms (b' ++ c) := by
  induction h with
  | nil _ => exact .nil _
  | cons hm _ ih => exact .cons (F.message_append c hm) ih

theorem Parses.concat {rest : Bytes} (h : F.Parses b ms b') (hm : F.next b' = .message m rest) :
    F.Parses b (ms ++ [m]) rest := h.append (.cons hm (.nil rest))

/-- Where no message follows, there were no more messages to read. -/
theorem Parses.maximal (h : F.Parses b ms b') (hstop : ∀ m rest, F.next b' ≠ .message m rest) :
    ∀ {ns : List μ} {b'' : Bytes}, F.Parses b ns b'' → ns <+: ms := by
  induction h with
  | nil b =>
    rintro ns b'' (_ | ⟨hm, _⟩)
    · exact List.prefix_rfl
    · exact absurd hm (hstop _ _)
  | @cons b rest b' m ms hm _ ih =>
    rintro ns b'' (_ | ⟨hm', hr⟩)
    · exact List.nil_prefix
    · rw [hm] at hm'
      cases hm'
      exact (List.cons_prefix_cons).mpr ⟨rfl, ih hstop hr⟩

/-- A way to write messages that the framing reads back. -/
def Encodes (F : Framing μ) (encode : μ → Bytes) (m : μ) : Prop := ∀ c, F.next (encode m ++ c) = .message m c

/-- What is written is read, and nothing else, up to what follows. -/
theorem parses_encoded {encode : μ → Bytes} (c : Bytes) : ∀ {ms : List μ}, (∀ m ∈ ms, F.Encodes encode m) →
    F.Parses (ms.flatMap encode ++ c) ms c
  | [], _ => .nil c
  | m :: ms, h => by
    rw [List.flatMap_cons, List.append_assoc]
    exact .cons (h m List.mem_cons_self _) (parses_encoded c fun n hn => h n (List.mem_cons_of_mem m hn))

/-- What holds of every message that can be read holds of those that were. -/
theorem Parses.forall {P : μ → Prop} (hP : ∀ {b m rest}, F.next b = .message m rest → P m) (h : F.Parses b ms b') :
    ∀ m ∈ ms, P m := by
  induction h with
  | nil _ => simp
  | cons hm _ ih => simpa using ⟨hP hm, ih⟩

/-- The bytes are read as the message, or there are none. -/
def Reads (F : Framing μ) : Option μ → Bytes → Prop
  | none, out => out = []
  | some m, out => ∀ c, F.next (out ++ c) = .message m c

/-- Replies written one after the other are read back as such. -/
theorem parses_replies {α β : Type} {bytes : α → Bytes} {reply : β → Option μ} {R : α → β → Prop} {l : List α}
    {l' : List β} (h : List.Forall₂ R l l') (hR : ∀ a ∈ l, ∀ b, R a b → F.Reads (reply b) (bytes a)) :
    F.Parses (l.flatMap bytes) (l'.filterMap reply) [] := by
  induction h with
  | nil => exact .nil []
  | @cons a b l l' hab _ ih =>
    have hreads := hR a List.mem_cons_self b hab
    have htail := ih fun x hx => hR x (List.mem_cons_of_mem a hx)
    rw [List.flatMap_cons, List.filterMap_cons]
    cases hb : reply b with
    | none =>
      rw [hb] at hreads
      have hnil : bytes a = [] := hreads
      rw [hnil, List.nil_append]
      exact htail
    | some m =>
      rw [hb] at hreads
      exact .cons (hreads _) htail

theorem parses_flatMap {α : Type} {bytes : α → Bytes} {reply : α → Option μ} {l : List α}
    (h : ∀ a ∈ l, F.Reads (reply a) (bytes a)) : F.Parses (l.flatMap bytes) (l.filterMap reply) [] := by
  have hsame : List.Forall₂ Eq l l := List.forall₂_same.mpr fun _ _ => rfl
  refine parses_replies hsame fun a ha b hab => ?_
  subst hab
  exact h a ha

end Framing

/-! ### Servers -/

/-- The component `σ` is shared, each connection has a `κ` of its own; `ρ` is what
handling a message draws from the system. -/
structure Server (σ κ ρ μ ε : Type) where
  framing : Framing μ
  fresh : κ
  /-- The component after the message, and the connection's state and reply, if it goes on. -/
  handle : σ → κ → ρ → μ → Except ε (σ × Option (κ × Bytes))

/-- A message that a connection had handled. -/
structure Call (ι ρ μ : Type) where
  conn : ι
  rng : ρ
  message : μ

structure Connection (κ : Type) where
  own : κ
  /-- The bytes that have arrived and were not read. -/
  input : Bytes := []
  output : Bytes := []
  isOpen : Bool := true

structure System (σ κ ε ι : Type) where
  shared : σ
  /-- The panic that poisoned the lock. -/
  poison : Option ε := none
  conns : ι → Connection κ

inductive ServerEvent (ι ρ : Type)
  /-- A segment arrives. -/
  | arrive (i : ι) (segment : Bytes)
  /-- The thread of the connection goes on: it reads a message, if it can, and has it handled. -/
  | turn (i : ι) (r : ρ)
  /-- The other side has closed; the thread ends when it has read everything. -/
  | hangup (i : ι)

section Servers

variable {σ κ ρ μ ε ι : Type} [DecidableEq ι]

/-- The component and the states of the connections. -/
abbrev Shared (σ κ ι : Type) := σ × (ι → κ)

def System.put (s : System σ κ ε ι) (i : ι) (c : Connection κ) : System σ κ ε ι :=
  { s with conns := Function.update s.conns i c }

def System.view (s : System σ κ ε ι) : Shared σ κ ι := (s.shared, fun i => (s.conns i).own)

namespace Server

/-- The messages are handled one after the other: the reply, unless the connection ends. -/
def serialStep (S : Server σ κ ρ μ ε) (s : Shared σ κ ι) (c : Call ι ρ μ) :
    Except ε (Option Bytes × Shared σ κ ι) :=
  match S.handle s.1 (s.2 c.conn) c.rng c.message with
  | .error e => .error e
  | .ok (shared, none) => .ok (none, shared, s.2)
  | .ok (shared, some (own, out)) => .ok (some out, shared, Function.update s.2 c.conn own)

/-- A message handled by the server. -/
abbrev Handling (σ κ ρ μ ι : Type) := Event (Shared σ κ ι) (Call ι ρ μ) (Option Bytes)

def close (s : System σ κ ε ι) (i : ι) : System σ κ ε ι := s.put i { s.conns i with isOpen := false }

/-- The message that a connection has read is handled, under the lock. -/
def serve (S : Server σ κ ρ μ ε) (s : System σ κ ε ι) (i : ι) (r : ρ) (m : μ) (rest : Bytes) :
    Option (Handling σ κ ρ μ ι) × System σ κ ε ι :=
  let c := s.conns i
  match s.poison with
  | some _ => (none, close s i)
  | none =>
    match S.handle s.shared c.own r m with
    | .error e => (none, { close s i with poison := some e })
    | .ok (shared, none) =>
      (some ⟨s.view, ⟨i, r, m⟩, none⟩, { s.put i { c with input := rest, isOpen := false } with shared })
    | .ok (shared, some (own, out)) =>
      (some ⟨s.view, ⟨i, r, m⟩, some out⟩,
        { s.put i { c with own, input := rest, output := c.output ++ out } with shared })

def step (S : Server σ κ ρ μ ε) (s : System σ κ ε ι) :
    ServerEvent ι ρ → Option (Handling σ κ ρ μ ι) × System σ κ ε ι
  | .arrive i segment => (none, s.put i { s.conns i with input := (s.conns i).input ++ segment })
  | .turn i r =>
    if (s.conns i).isOpen = false then (none, s)
    else match S.framing.next (s.conns i).input with
      | .waits => (none, s)
      | .fails => (none, close s i)
      | .message m rest => S.serve s i r m rest
  | .hangup i =>
    match S.framing.next (s.conns i).input with
    | .waits => (none, close s i)
    | _ => (none, s)

/-- The component as it is, and connections that have sent nothing. -/
def start (S : Server σ κ ρ μ ε) (shared : σ) : System σ κ ε ι := { shared, conns := fun _ => { own := S.fresh } }

/-- The system after the events. -/
def after (S : Server σ κ ρ μ ε) (shared : σ) (es : List (ServerEvent ι ρ)) : System σ κ ε ι :=
  (outputs S.step (S.start shared) es).2

/-- The messages that were handled, in order. -/
def handled (S : Server σ κ ρ μ ε) (shared : σ) (es : List (ServerEvent ι ρ)) : List (Handling σ κ ρ μ ι) :=
  (outputs S.step (S.start shared) es).1.reduceOption

end Server

/-- The bytes that arrived for a connection. -/
def received (es : List (ServerEvent ι ρ)) (i : ι) : Bytes :=
  es.flatMap fun
    | .arrive j segment => if j = i then segment else []
    | _ => []

/-- The part of a log that is of one connection. -/
def ofConn {τ ο : Type} (i : ι) (log : List (Event τ (Call ι ρ μ) ο)) : List (Event τ (Call ι ρ μ) ο) :=
  log.filter fun e => e.input.conn = i

/-- What a step adds to what has been handled. -/
inductive Stepped (S : Server σ κ ρ μ ε) (s : System σ κ ε ι) : ServerEvent ι ρ →
    Option (Server.Handling σ κ ρ μ ι) → System σ κ ε ι → Prop
  | arrived (i : ι) (segment : Bytes) :
      Stepped S s (.arrive i segment) none (s.put i { s.conns i with input := (s.conns i).input ++ segment })
  | idle {e : ServerEvent ι ρ} (h : ∀ i segment, e ≠ .arrive i segment) : Stepped S s e none s
  | closed {e : ServerEvent ι ρ} (h : ∀ i segment, e ≠ .arrive i segment) (i : ι) (poison : Option ε)
      (hp : poison = s.poison ∨ ∃ c e, S.serialStep s.view c = .error e) :
      Stepped S s e none { Server.close s i with poison }
  | ended {i : ι} {r : ρ} {m : μ} {rest : Bytes} {shared : σ} (hp : s.poison = none)
      (hm : S.framing.next (s.conns i).input = .message m rest)
      (hh : S.handle s.shared (s.conns i).own r m = .ok (shared, none)) :
      Stepped S s (.turn i r) (some ⟨s.view, ⟨i, r, m⟩, none⟩)
        { s.put i { s.conns i with input := rest, isOpen := false } with shared }
  | replied {i : ι} {r : ρ} {m : μ} {rest : Bytes} {shared : σ} {own : κ} {out : Bytes} (hp : s.poison = none)
      (hm : S.framing.next (s.conns i).input = .message m rest)
      (hh : S.handle s.shared (s.conns i).own r m = .ok (shared, some (own, out))) :
      Stepped S s (.turn i r) (some ⟨s.view, ⟨i, r, m⟩, some out⟩)
        { s.put i { s.conns i with own, input := rest, output := (s.conns i).output ++ out } with shared }

/-- Two logs of the same calls have the same calls of a connection. -/
theorem ofConn_matches {τ τ' o o' : Type} {Q : Call ι ρ μ → o → o' → Prop} (i : ι) {log : List (Event τ (Call ι ρ μ) o)}
    {log' : List (Event τ' (Call ι ρ μ) o')} (h : List.Forall₂ (Event.Matches Q) log log') :
    List.Forall₂ (Event.Matches Q) (ofConn i log) (ofConn i log') := by
  induction h with
  | nil => exact .nil
  | @cons e e' log log' he _ ih =>
    simp only [ofConn, List.filter_cons, he.1]
    split
    · exact .cons he ih
    · exact ih

theorem matches_messages {τ τ' o o' : Type} {Q : Call ι ρ μ → o → o' → Prop} {log : List (Event τ (Call ι ρ μ) o)}
    {log' : List (Event τ' (Call ι ρ μ) o')} (h : List.Forall₂ (Event.Matches Q) log log') :
    log'.map (·.input.message) = log.map (·.input.message) := by
  induction h with
  | nil => rfl
  | cons he _ ih => rw [List.map_cons, List.map_cons, he.1, ih]

namespace Server

variable {S : Server σ κ ρ μ ε} {s : System σ κ ε ι}

theorem step_cases (S : Server σ κ ρ μ ε) (s : System σ κ ε ι) (e : ServerEvent ι ρ) :
    Stepped S s e (S.step s e).1 (S.step s e).2 := by
  cases e with
  | arrive i segment => exact .arrived i segment
  | hangup i =>
    unfold step
    dsimp only
    split
    · exact .closed nofun i s.poison (.inl rfl)
    · exact .idle nofun
  | turn i r =>
    unfold step
    dsimp only
    split
    · exact .idle nofun
    · split
      · exact .idle nofun
      · exact .closed nofun i s.poison (.inl rfl)
      · rename_i m rest hm
        unfold serve
        dsimp only
        rcases hp : s.poison with _ | e
        · dsimp only
          split
          · rename_i e hh
            have hh' : S.handle s.view.1 (s.view.2 i) r m = .error e := hh
            exact .closed nofun i _ (.inr ⟨⟨i, r, m⟩, e, by simp only [serialStep, hh']⟩)
          · exact .ended hp hm ‹_›
          · exact .replied hp hm ‹_›
        · have hclose : close s i = { close s i with poison := some e } := by simp only [close, System.put, hp]
          dsimp only
          rw [hclose]
          exact .closed nofun i (some e) (.inl hp.symm)

/-! ### The component sees one message after the other -/

theorem view_of_conns {s' : System σ κ ε ι} {i : ι} {c : Connection κ} (h : s'.conns = Function.update s.conns i c) :
    s'.view = (s'.shared, Function.update s.view.2 i c.own) := by
  refine Prod.ext rfl (funext fun j => ?_)
  show (s'.conns j).own = _
  rw [h]
  by_cases hj : j = i
  · subst hj
    simp only [Function.update_self]
  · simp only [Function.update_of_ne hj, System.view]

/-- What leaves the state of a connection alone leaves the states of all of them alone. -/
theorem view_of_conns_own {s' : System σ κ ε ι} {i : ι} {c : Connection κ}
    (h : s'.conns = Function.update s.conns i c) (hown : c.own = (s.conns i).own) :
    s'.view = (s'.shared, s.view.2) := by
  rw [view_of_conns h, hown]
  exact congrArg (Prod.mk _) (Function.update_eq_self i s.view.2)

theorem stepped_run {e : ServerEvent ι ρ} {o : Option (Handling σ κ ρ μ ι)} {s' : System σ κ ε ι}
    (h : Stepped S s e o s') : Run S.serialStep s.view o.toList s'.view := by
  have hview : ∀ {i c}, s'.conns = Function.update s.conns i c →
      s'.view = (s'.shared, Function.update s.view.2 i c.own) := view_of_conns
  have hown : ∀ {i c}, s'.conns = Function.update s.conns i c → c.own = (s.conns i).own →
      s'.view = (s'.shared, s.view.2) := view_of_conns_own
  cases h with
  | arrived i segment =>
    rw [hown rfl rfl]
    exact .nil _
  | idle _ => exact .nil _
  | closed _ i poison _ =>
    rw [hown (c := { s.conns i with isOpen := false }) rfl rfl]
    exact .nil _
  | @ended i r m rest shared _ _ hh =>
    rw [hown (c := { s.conns i with input := rest, isOpen := false }) rfl rfl]
    refine .cons ?_ (.nil _)
    have hh' : S.handle s.view.1 (s.view.2 i) r m = .ok (shared, none) := hh
    simp only [serialStep, hh']
  | @replied i r m rest shared own out _ _ hh =>
    rw [hview (c := { s.conns i with own, input := rest, output := (s.conns i).output ++ out }) rfl]
    refine .cons ?_ (.nil _)
    have hh' : S.handle s.view.1 (s.view.2 i) r m = .ok (shared, some (own, out)) := hh
    simp only [serialStep, hh']

theorem reduceOption_cons {α : Type} (o : Option α) (l : List (Option α)) :
    (o :: l).reduceOption = o.toList ++ l.reduceOption := by
  cases o with
  | none => exact List.reduceOption_cons_of_none l
  | some a => exact List.reduceOption_cons_of_some a l

theorem outputs_run (S : Server σ κ ρ μ ε) : ∀ (es : List (ServerEvent ι ρ)) (s : System σ κ ε ι),
    Run S.serialStep s.view (outputs S.step s es).1.reduceOption (outputs S.step s es).2.view
  | [], s => .nil _
  | e :: es, s => by
    have hhead := stepped_run (S.step_cases s e)
    have htail := outputs_run S es (S.step s e).2
    simp only [outputs, reduceOption_cons]
    exact hhead.append htail

/-- The component has been through the messages that were handled, in order. -/
theorem run_serial (S : Server σ κ ρ μ ε) (shared : σ) (es : List (ServerEvent ι ρ)) :
    Run S.serialStep (shared, fun _ => S.fresh) (S.handled shared es) (S.after shared es).view :=
  outputs_run S es (S.start shared)

/-! ### One connection among the others -/

/-- A message of one connection, with the component as it is. -/
def localStep (S : Server σ κ ρ μ ε) (s : σ × κ) (i : ρ × μ) : Except ε (Option Bytes × (σ × κ)) :=
  match S.handle s.1 s.2 i.1 i.2 with
  | .error e => .error e
  | .ok (shared, none) => .ok (none, shared, s.2)
  | .ok (shared, some (own, out)) => .ok (some out, shared, own)

/-- What the other connections do: they move the component, and leave the connection's own state alone. -/
def Others (S : Server σ κ ρ μ ε) (s s' : σ × κ) : Prop :=
  s'.2 = s.2 ∧ ∃ k i o k', S.localStep (s.1, k) i = .ok (o, (s'.1, k'))

/-- An event, as the connection sees it. -/
def seenBy (i : ι) (e : Handling σ κ ρ μ ι) : Event (σ × κ) (ρ × μ) (Option Bytes) :=
  ⟨(e.pre.1, e.pre.2 i), (e.input.rng, e.input.message), e.output⟩

theorem serialStep_local {v v' : Shared σ κ ι} {c : Call ι ρ μ} {o : Option Bytes}
    (h : S.serialStep v c = .ok (o, v')) : ∃ own,
      S.localStep (v.1, v.2 c.conn) (c.rng, c.message) = .ok (o, (v'.1, own)) ∧ v'.2 = Function.update v.2 c.conn own := by
  unfold serialStep at h
  unfold localStep
  rcases hh : S.handle v.1 (v.2 c.conn) c.rng c.message with e | ⟨shared, _ | ⟨own, out⟩⟩
  · rw [hh] at h
    cases h
  · rw [hh] at h
    cases h
    exact ⟨v.2 c.conn, rfl, (Function.update_eq_self c.conn v.2).symm⟩
  · rw [hh] at h
    cases h
    exact ⟨own, rfl, rfl⟩

/-- The messages of a connection are a run of it, among the others. -/
theorem run_amid {v v' : Shared σ κ ι} {log : List (Handling σ κ ρ μ ι)} (h : Run S.serialStep v log v') (i : ι) :
    Amid S.localStep S.Others (v.1, v.2 i) ((ofConn i log).map (seenBy i)) (v'.1, v'.2 i) := by
  refine h.history (I := fun log w => Amid S.localStep S.Others (v.1, v.2 i) ((ofConn i log).map (seenBy i))
    (w.1, w.2 i)) (fun past w c o w' hw hs => ?_) .nil
  obtain ⟨own, hlocal, hown⟩ := serialStep_local hs
  rw [ofConn, List.filter_append, List.map_append]
  by_cases hc : c.conn = i
  · subst hc
    rw [hown, Function.update_self]
    simpa [seenBy, ofConn] using hw.own hlocal
  · have hsame : w'.2 i = w.2 i := by rw [hown, Function.update_of_ne (Ne.symm hc)]
    have hnone : [(⟨w, c, o⟩ : Handling σ κ ρ μ ι)].filter (fun e => e.input.conn = i) = [] := by simp [hc]
    rw [hnone, List.map_nil, List.append_nil, hsame]
    exact hw.env ⟨rfl, _, _, _, _, hlocal⟩

/-! ### Each connection sees its own messages -/

/-- What was handled for a connection, out of these bytes. -/
structure Tracks (S : Server σ κ ρ μ ε) (i : ι) (bytes : Bytes) (log : List (Handling σ κ ρ μ ι))
    (s : System σ κ ε ι) : Prop where
  parses : S.framing.Parses bytes (log.map (·.input.message)) (s.conns i).input
  output : (s.conns i).output = log.flatMap fun e => e.output.getD []

theorem ofConn_other {i j : ι} (hij : j ≠ i) (v : Shared σ κ ι) (r : ρ) (m : μ) (o : Option Bytes) :
    ofConn i [(⟨v, ⟨j, r, m⟩, o⟩ : Handling σ κ ρ μ ι)] = [] := by
  simp [ofConn, hij]

theorem ofConn_self (i : ι) (v : Shared σ κ ι) (r : ρ) (m : μ) (o : Option Bytes) :
    ofConn i [(⟨v, ⟨i, r, m⟩, o⟩ : Handling σ κ ρ μ ι)] = [⟨v, ⟨i, r, m⟩, o⟩] := by
  simp [ofConn]

theorem received_of_not_arrive {e : ServerEvent ι ρ} (h : ∀ i segment, e ≠ .arrive i segment) (i : ι) :
    received [e] i = [] := by
  cases e with
  | arrive j segment => exact absurd rfl (h j segment)
  | turn j r => rfl
  | hangup j => rfl

/-- Another connection has moved. -/
theorem Tracks.of_other {i j : ι} {bytes : Bytes} {log : List (Handling σ κ ρ μ ι)} {c : Connection κ}
    {s' : System σ κ ε ι} (h : Tracks S i bytes log s) (hs : s'.conns = Function.update s.conns j c) (hij : i ≠ j) :
    Tracks S i bytes log s' := by
  have hconn : s'.conns i = s.conns i := by rw [hs, Function.update_of_ne hij]
  exact ⟨hconn ▸ h.parses, hconn ▸ h.output⟩

/-- The connection itself has moved. -/
theorem Tracks.of_self {i : ι} {bytes bytes' : Bytes} {log log' : List (Handling σ κ ρ μ ι)} {c : Connection κ}
    {s' : System σ κ ε ι} (h : Tracks S i bytes log s) (hs : s'.conns = Function.update s.conns i c)
    (hin : S.framing.Parses bytes (log.map (·.input.message)) (s.conns i).input →
      S.framing.Parses (bytes ++ bytes') ((log ++ log').map (·.input.message)) c.input)
    (hout : c.output = (s.conns i).output ++ log'.flatMap fun e => e.output.getD []) :
    Tracks S i (bytes ++ bytes') (log ++ log') s' := by
  have hconn : s'.conns i = c := by rw [hs, Function.update_self]
  refine ⟨?_, ?_⟩
  · rw [hconn]
    exact hin h.parses
  · rw [hconn, hout, h.output, List.flatMap_append]

/-- A step of the server keeps track. -/
theorem Tracks.step {i : ι} {bytes : Bytes} {log : List (Handling σ κ ρ μ ι)} {e : ServerEvent ι ρ}
    {o : Option (Handling σ κ ρ μ ι)} {s' : System σ κ ε ι} (h : Tracks S i bytes log s) (hs : Stepped S s e o s') :
    Tracks S i (bytes ++ received [e] i) (log ++ ofConn i o.toList) s' := by
  have hsame : Tracks S i (bytes ++ []) (log ++ []) s := by
    rw [List.append_nil, List.append_nil]
    exact h
  cases hs with
  | arrived j segment =>
    by_cases hij : i = j
    · subst hij
      have hbytes : received [ServerEvent.arrive (ρ := ρ) i segment] i = segment := by simp [received]
      rw [hbytes]
      exact h.of_self rfl (fun hp => (List.append_nil log).symm ▸ hp.extend segment) (List.append_nil _).symm
    · have hbytes : received [ServerEvent.arrive (ρ := ρ) j segment] i = [] := by simp [received, Ne.symm hij]
      rw [hbytes]
      exact hsame.of_other rfl hij
  | idle hne =>
    rw [received_of_not_arrive hne]
    exact hsame
  | closed hne j poison _ =>
    rw [received_of_not_arrive hne]
    by_cases hij : i = j
    · subst hij
      refine h.of_self (c := { s.conns i with isOpen := false }) rfl (fun hp => ?_) (List.append_nil _).symm
      rw [List.append_nil]
      exact (List.append_nil log).symm ▸ hp
    · exact hsame.of_other (c := { s.conns j with isOpen := false }) rfl hij
  | @ended j r m rest shared _ hm _ =>
    rw [received_of_not_arrive nofun]
    by_cases hij : i = j
    · subst hij
      rw [Option.toList_some, ofConn_self]
      refine h.of_self (c := { s.conns i with input := rest, isOpen := false }) rfl (fun hp => ?_)
        (List.append_nil _).symm
      rw [List.append_nil, List.map_append]
      exact hp.concat hm
    · rw [Option.toList_some, ofConn_other (Ne.symm hij)]
      exact hsame.of_other (c := { s.conns j with input := rest, isOpen := false }) rfl hij
  | @replied j r m rest shared own out _ hm _ =>
    rw [received_of_not_arrive nofun]
    by_cases hij : i = j
    · subst hij
      rw [Option.toList_some, ofConn_self]
      refine h.of_self (c := { s.conns i with own, input := rest, output := (s.conns i).output ++ out }) rfl
        (fun hp => ?_) (by simp)
      rw [List.append_nil, List.map_append]
      exact hp.concat hm
    · rw [Option.toList_some, ofConn_other (Ne.symm hij)]
      exact hsame.of_other (c := { s.conns j with own, input := rest, output := (s.conns j).output ++ out }) rfl hij

theorem ofConn_append (i : ι) (l l' : List (Handling σ κ ρ μ ι)) : ofConn i (l ++ l') = ofConn i l ++ ofConn i l' :=
  List.filter_append l l'

theorem outputs_tracks {i : ι} : ∀ (es : List (ServerEvent ι ρ)) {s : System σ κ ε ι} {bytes : Bytes}
    {log : List (Handling σ κ ρ μ ι)}, Tracks S i bytes log s →
    Tracks S i (bytes ++ received es i) (log ++ ofConn i (outputs S.step s es).1.reduceOption) (outputs S.step s es).2
  | [], s, bytes, log, h => by
    have hnil : received ([] : List (ServerEvent ι ρ)) i = [] := rfl
    have hlog : ofConn i (outputs S.step s []).1.reduceOption = [] := rfl
    rw [hnil, hlog, List.append_nil, List.append_nil]
    exact h
  | e :: es, s, bytes, log, h => by
    have htail := outputs_tracks es (h.step (S.step_cases s e))
    have hbytes : received (e :: es) i = received [e] i ++ received es i := by
      rw [← List.singleton_append, received, List.flatMap_append, received, received]
    simp only [outputs, reduceOption_cons, ofConn_append]
    rw [hbytes, ← List.append_assoc, ← List.append_assoc]
    exact htail

/-- The messages of a connection are read off the bytes it received, however they were cut and whatever else went
on, and it is sent the replies to them. -/
theorem run_connection (S : Server σ κ ρ μ ε) (shared : σ) (es : List (ServerEvent ι ρ)) (i : ι) :
    S.framing.Parses (received es i) ((ofConn i (S.handled shared es)).map (·.input.message))
        ((S.after shared es).conns i).input ∧
      ((S.after shared es).conns i).output = (ofConn i (S.handled shared es)).flatMap fun e => e.output.getD [] := by
  have h : Tracks S i [] [] (S.start shared : System σ κ ε ι) := ⟨.nil [], rfl⟩
  have hend := outputs_tracks es h
  rw [List.nil_append, List.nil_append] at hend
  exact ⟨hend.parses, hend.output⟩

/-! ### The lock is not poisoned -/

/-- Where no message makes the component panic, the lock stays good. -/
theorem never_poisoned {I : Shared σ κ ι → Prop}
    (hstep : ∀ v c, I v → ∃ o v', S.serialStep v c = .ok (o, v') ∧ I v') {shared : σ}
    (h₀ : I (shared, fun _ => S.fresh)) (es : List (ServerEvent ι ρ)) :
    (S.after shared es).poison = none ∧ I (S.after shared es).view := by
  have hI : ∀ {v v' : Shared σ κ ι} {log : List (Handling σ κ ρ μ ι)}, Run S.serialStep v log v' → I v → I v' := by
    intro v v' log hr hv
    refine hr.invariant (P := fun _ => True) (fun v c o w hv _ hs => ?_) (fun _ _ => trivial) hv
    obtain ⟨o', w', hs', hw⟩ := hstep v c hv
    rw [hs] at hs'
    cases hs'
    exact hw
  refine outputs_invariant (I := fun s : System σ κ ε ι => s.poison = none ∧ I s.view) ?_ es (S.start shared) ⟨rfl, h₀⟩
  rintro s e ⟨hp, hv⟩
  have hs := S.step_cases s e
  refine ⟨?_, hI (stepped_run hs) hv⟩
  generalize (S.step s e).1 = o at hs
  generalize (S.step s e).2 = s' at hs
  cases hs with
  | arrived _ _ => exact hp
  | idle _ => exact hp
  | closed _ _ poison hpoison =>
    rcases hpoison with rfl | ⟨c, e, he⟩
    · exact hp
    · obtain ⟨o, v', hok, -⟩ := hstep _ c hv
      rw [he] at hok
      cases hok
  | ended hp _ _ => exact hp
  | replied hp _ _ => exact hp

end Server
end Servers

end Simulators
