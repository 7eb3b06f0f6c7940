import Muduo.InetAddress
import Muduo.Lib.Transition
import Mathlib.Data.List.Nodup
import Mathlib.Logic.Function.Basic

/-!
# TcpServer

`connections_` on the base loop: `newConnection` and `removeConnectionInLoop` in any order.  A
connection is named by the server's name, its listen address and a counter.

    connections_  =  the connections accepted and not removed, each under its name   (connections_exact)

* Connections are numbered by their order; a connection object keeps its name and its loop `L`.
* The counter is an `int` and wraps after 2^31 - 1 connections (C++ leaves the overflow undefined).
-/

namespace Muduo

open Transition

/-- What the server posts to the loop of a connection. -/
inductive ServerFunctor
  | connectEstablished (conn : Nat)
  | connectDestroyed (conn : Nat)
deriving DecidableEq, Repr

/-- A `TcpConnection` object, as far as the server reads it. -/
structure ServerConnection (L : Type*) where
  name : List Char
  ioLoop : L

structure TcpServer (L : Type*) where
  ipPort : List Char
  name : List Char
  nextConnId : Int
  connections : List Char → Option Nat
  /-- history: all connections accepted -/
  accepted : List (ServerConnection L)
  /-- history: the connections given to `removeConnectionInLoop` -/
  removed : List Nat
  /-- history: the functors posted, each with its loop -/
  posted : List (L × ServerFunctor)

inductive ServerAction (L : Type*)
  /-- `ioLoop` is what `getNextLoop` returns -/
  | newConnection (ioLoop : L)
  | removeConnectionInLoop (conn : Nat)

namespace TcpServer

variable {L : Type*}

/-- `TcpServer()`. -/
def start (listenAddr : InetAddress) (nameArg : List Char) : TcpServer L where
  ipPort := listenAddr.toIpPort
  name := nameArg
  nextConnId := 1
  connections := fun _ => none
  accepted := []
  removed := []
  posted := []

/-- The size of `buf`. -/
def bufSize : Nat := 64

def buf (ipPort : List Char) (nextConnId : Int) : List Char :=
  Format.snprintf bufSize ('-' :: (ipPort ++ '#' :: Format.signed nextConnId))

/-- `++nextConnId_`. -/
def increment (i : Int) : Int := (i + 1).bmod 0x100000000

def newConnection (s : TcpServer L) (ioLoop : L) : TcpServer L :=
  let connName := s.name ++ buf s.ipPort s.nextConnId
  let conn := s.accepted.length
  { s with
    nextConnId := increment s.nextConnId
    connections := Function.update s.connections connName (some conn)
    accepted := s.accepted ++ [⟨connName, ioLoop⟩]
    posted := s.posted ++ [(ioLoop, .connectEstablished conn)] }

def removeConnectionInLoop (s : TcpServer L) (conn : Nat) (c : ServerConnection L) : TcpServer L :=
  { s with
    connections := Function.update s.connections c.name none
    removed := s.removed ++ [conn]
    posted := s.posted ++ [(c.ioLoop, .connectDestroyed conn)] }

def step (s : TcpServer L) : ServerAction L → Option (TcpServer L)
  | .newConnection ioLoop => some (s.newConnection ioLoop)
  | .removeConnectionInLoop conn => s.accepted[conn]?.map (s.removeConnectionInLoop conn)

/-! ## Names -/

/-- The name of the `n`-th connection, counted from 0, in full. -/
def connName (listenAddr : InetAddress) (nameArg : List Char) (n : Nat) : List Char :=
  nameArg ++ '-' :: (listenAddr.toIpPort ++ '#' :: Format.unsigned (n + 1))

theorem connName_injective (listenAddr : InetAddress) (nameArg : List Char) :
    Function.Injective (connName listenAddr nameArg) := by
  intro m n h
  unfold connName at h
  rw [List.append_cancel_left_eq, List.cons.injEq, List.append_cancel_left_eq, List.cons.injEq] at h
  have := Format.unsigned_injective h.2.2
  omega

/-- The counter before the `n`-th connection. -/
def counter (n : Nat) : Int := ((n : Int) + 1).bmod 0x100000000

theorem increment_counter (n : Nat) : increment (counter n) = counter (n + 1) := by
  unfold increment counter
  rw [Int.bmod_add_bmod, Int.natCast_add]
  rfl

/-- More connections than the counter can number. -/
def tooMany : Nat := 0x80000000

theorem counter_eq {n : Nat} (h : n + 1 < tooMany) : counter n = n + 1 := by
  unfold tooMany at h
  apply Int.bmod_eq_of_le_mul_two <;> omega

/-- **No name is truncated.** -/
theorem buf_eq (listenAddr : InetAddress) {n : Nat} (h : n + 1 < tooMany) :
    buf listenAddr.toIpPort (counter n) =
      '-' :: (listenAddr.toIpPort ++ '#' :: Format.unsigned (n + 1)) := by
  have hsigned : Format.signed (counter n) = Format.unsigned (n + 1) := by
    rw [counter_eq h]
    exact Format.signed_natCast (n + 1)
  have hlen : (Format.unsigned (n + 1)).length ≤ 10 := by
    apply Format.length_unsigned_le (by omega)
    unfold tooMany at h
    omega
  have hip := listenAddr.length_toIpPort
  unfold buf
  rw [hsigned]
  apply Format.snprintf_of_length_lt
  simp only [List.length_cons, List.length_append, bufSize]
  omega

/-! ## The map -/

variable {listenAddr : InetAddress} {nameArg : List Char} {s s' : TcpServer L}

/-- `connections_` holds the connections accepted and not removed, each under its own name. -/
def Exact (s : TcpServer L) : Prop :=
  ∀ key conn, s.connections key = some conn ↔
    (∃ c, s.accepted[conn]? = some c ∧ c.name = key) ∧ conn ∉ s.removed

structure Sound (listenAddr : InetAddress) (nameArg : List Char) (s : TcpServer L) : Prop where
  ipPort : s.ipPort = listenAddr.toIpPort
  name : s.name = nameArg
  nextConnId : s.nextConnId = counter s.accepted.length
  named : ∀ n c, s.accepted[n]? = some c → n + 1 < tooMany → c.name = connName listenAddr nameArg n
  removed_lt : ∀ conn ∈ s.removed, conn < s.accepted.length
  exact : s.accepted.length < tooMany → Exact s

theorem sound_start : Sound listenAddr nameArg (start listenAddr nameArg : TcpServer L) := by
  refine ⟨rfl, rfl, (counter_eq (n := 0) (by decide)).symm, ?_, ?_, ?_⟩
  · intro n c hc
    cases hc
  · intro conn hconn
    cases hconn
  · intro _ key conn
    simp [start]

/-- Connections of one name are one connection. -/
theorem Sound.eq_of_name (h : Sound listenAddr nameArg s) (hfew : s.accepted.length < tooMany)
    {m n : Nat} {c c' : ServerConnection L} (hc : s.accepted[m]? = some c)
    (hc' : s.accepted[n]? = some c') (heq : c.name = c'.name) : m = n := by
  obtain ⟨hm, -⟩ := List.getElem?_eq_some_iff.mp hc
  obtain ⟨hn, -⟩ := List.getElem?_eq_some_iff.mp hc'
  rw [h.named m c hc (by omega), h.named n c' hc' (by omega)] at heq
  exact connName_injective _ _ heq

/-- The name of the next connection. -/
theorem Sound.newName (h : Sound listenAddr nameArg s) (hfew : s.accepted.length + 1 < tooMany) :
    s.name ++ buf s.ipPort s.nextConnId = connName listenAddr nameArg s.accepted.length := by
  rw [h.name, h.ipPort, h.nextConnId, buf_eq listenAddr hfew]
  rfl

/-- **No entry is overwritten.** -/
theorem Sound.connections_newName (h : Sound listenAddr nameArg s)
    (hfew : s.accepted.length + 1 < tooMany) :
    s.connections (connName listenAddr nameArg s.accepted.length) = none := by
  rw [Option.eq_none_iff_forall_not_mem]
  intro conn hconn
  obtain ⟨⟨c, hc, hname⟩, -⟩ := (h.exact (by omega) _ conn).mp hconn
  obtain ⟨hlt, -⟩ := List.getElem?_eq_some_iff.mp hc
  rw [h.named conn c hc (by omega)] at hname
  have := connName_injective _ _ hname
  omega

theorem getElem?_newConnection (s : TcpServer L) (ioLoop : L) (n : Nat) (c : ServerConnection L) :
    (s.newConnection ioLoop).accepted[n]? = some c ↔ s.accepted[n]? = some c ∨
      n = s.accepted.length ∧ c = ⟨s.name ++ buf s.ipPort s.nextConnId, ioLoop⟩ := by
  simp only [newConnection, List.getElem?_append, List.getElem?_singleton]
  split
  · next hlt =>
    have hne : n ≠ s.accepted.length := by omega
    simp [hne]
  · next hge =>
    have hnone : s.accepted[n]? = none := List.getElem?_eq_none (by omega)
    rw [hnone]
    by_cases hn : n = s.accepted.length
    · simp [hn, eq_comm]
    · have : n - s.accepted.length ≠ 0 := by omega
      simp [hn, this]

/-- The new connection gets an entry of its own. -/
theorem Sound.exact_newConnection (h : Sound listenAddr nameArg s) (ioLoop : L)
    (hfew : s.accepted.length + 1 < tooMany) : Exact (s.newConnection ioLoop) := by
  intro key conn
  have hold := h.exact (by omega) key conn
  have hfresh : s.accepted.length ∉ s.removed := by
    intro hmem
    have := h.removed_lt _ hmem
    omega
  show Function.update s.connections (s.name ++ buf s.ipPort s.nextConnId)
    (some s.accepted.length) key = some conn ↔
      (∃ c, (s.newConnection ioLoop).accepted[conn]? = some c ∧ c.name = key) ∧ conn ∉ s.removed
  simp only [getElem?_newConnection]
  by_cases hkey : key = s.name ++ buf s.ipPort s.nextConnId
  · subst hkey
    rw [Function.update_self, Option.some.injEq]
    constructor
    · rintro rfl
      exact ⟨⟨_, Or.inr ⟨rfl, rfl⟩, rfl⟩, hfresh⟩
    · rintro ⟨⟨c, hc | ⟨rfl, -⟩, hname⟩, hrem⟩
      · have hsome := hold.mpr ⟨⟨c, hc, hname⟩, hrem⟩
        rw [h.newName hfew, h.connections_newName hfew] at hsome
        cases hsome
      · rfl
  · rw [Function.update_of_ne hkey, hold]
    constructor
    · rintro ⟨⟨c, hc, hname⟩, hrem⟩
      exact ⟨⟨c, Or.inl hc, hname⟩, hrem⟩
    · rintro ⟨⟨c, hc | ⟨-, rfl⟩, hname⟩, hrem⟩
      · exact ⟨⟨c, hc, hname⟩, hrem⟩
      · exact absurd hname.symm hkey

theorem sound_newConnection (h : Sound listenAddr nameArg s) (ioLoop : L) :
    Sound listenAddr nameArg (s.newConnection ioLoop) := by
  have hlen : (s.newConnection ioLoop).accepted.length = s.accepted.length + 1 := by
    simp [newConnection]
  refine ⟨h.ipPort, h.name, ?_, ?_, ?_, ?_⟩
  · rw [hlen, ← increment_counter, ← h.nextConnId]
    rfl
  · intro n c hc hfew
    rcases (getElem?_newConnection s ioLoop n c).mp hc with hold | ⟨rfl, rfl⟩
    · exact h.named n c hold hfew
    · exact h.newName hfew
  · intro conn hconn
    have := h.removed_lt conn hconn
    omega
  · intro hfew
    rw [hlen] at hfew
    exact h.exact_newConnection ioLoop hfew

theorem sound_removeConnectionInLoop (h : Sound listenAddr nameArg s) {conn : Nat}
    {c : ServerConnection L} (hc : s.accepted[conn]? = some c) :
    Sound listenAddr nameArg (s.removeConnectionInLoop conn c) := by
  obtain ⟨hlt, -⟩ := List.getElem?_eq_some_iff.mp hc
  refine ⟨h.ipPort, h.name, h.nextConnId, h.named, ?_, ?_⟩
  · intro conn' hconn'
    rcases List.mem_append.mp hconn' with hconn' | hconn'
    · exact h.removed_lt conn' hconn'
    · rw [List.mem_singleton] at hconn'
      rw [hconn']
      exact hlt
  · intro hfew key conn'
    replace hfew : s.accepted.length < tooMany := hfew
    show Function.update s.connections c.name none key = some conn' ↔
      (∃ c', s.accepted[conn']? = some c' ∧ c'.name = key) ∧ conn' ∉ s.removed ++ [conn]
    rw [List.mem_append, List.mem_singleton, not_or]
    by_cases hkey : key = c.name
    · subst hkey
      rw [Function.update_self]
      constructor
      · intro hnone
        cases hnone
      · rintro ⟨⟨c', hc', hname⟩, -, hne⟩
        exact absurd (h.eq_of_name hfew hc' hc hname) hne
    · rw [Function.update_of_ne hkey, h.exact hfew key conn']
      constructor
      · rintro ⟨⟨c', hc', hname⟩, hrem⟩
        refine ⟨⟨c', hc', hname⟩, hrem, ?_⟩
        rintro rfl
        cases hc.symm.trans hc'
        exact hkey hname.symm
      · rintro ⟨hex, hrem, -⟩
        exact ⟨hex, hrem⟩

theorem sound_step (s : TcpServer L) (a : ServerAction L) (s' : TcpServer L)
    (h : Sound listenAddr nameArg s) (hs : s.step a = some s') : Sound listenAddr nameArg s' := by
  cases a with
  | newConnection ioLoop =>
    cases hs
    exact sound_newConnection h ioLoop
  | removeConnectionInLoop conn =>
    obtain ⟨c, hc, rfl⟩ := Option.map_eq_some_iff.mp hs
    exact sound_removeConnectionInLoop h hc

/-- A removal erases the entry of its connection and no other. -/
theorem Sound.erases_own (h : Sound listenAddr nameArg s) (hfew : s.accepted.length < tooMany)
    {conn : Nat} (hs : s.step (.removeConnectionInLoop conn) = some s') (key : List Char) :
    s'.connections key = if s.connections key = some conn then none else s.connections key := by
  obtain ⟨c, hc, rfl⟩ := Option.map_eq_some_iff.mp hs
  show Function.update s.connections c.name none key = _
  by_cases hkey : key = c.name
  · subst hkey
    rw [Function.update_self]
    split
    · rfl
    · next hne =>
      symm
      rw [Option.eq_none_iff_forall_not_mem]
      intro conn' hconn'
      obtain ⟨⟨c', hc', hname⟩, -⟩ := (h.exact hfew c.name conn').mp hconn'
      rw [h.eq_of_name hfew hc' hc hname] at hconn'
      exact hne hconn'
  · rw [Function.update_of_ne hkey, if_neg]
    intro hconn
    obtain ⟨⟨c', hc', hname⟩, -⟩ := (h.exact hfew key conn).mp hconn
    cases hc.symm.trans hc'
    exact hkey hname.symm

/-- **The connection map is exact.**  In every run with fewer than 2^31 connections accepted,
`connections_` holds exactly the connections accepted and not removed, each under its own name;
names are in full and pairwise distinct; `newConnection` finds no entry under the name it uses;
and a removal erases the entry of the connection it was given and no other. -/
theorem connections_exact (listenAddr : InetAddress) (nameArg : List Char) (as : List (ServerAction L))
    (s : TcpServer L) (hrun : run step (start listenAddr nameArg) as = some s)
    (hfew : s.accepted.length < tooMany) :
    Exact s ∧
      (∀ n c, s.accepted[n]? = some c → c.name = connName listenAddr nameArg n) ∧
      (s.accepted.map ServerConnection.name).Nodup ∧
      (∀ ioLoop s', s.step (.newConnection ioLoop) = some s' → s'.accepted.length < tooMany →
        ∃ c, s'.accepted = s.accepted ++ [c] ∧ s.connections c.name = none ∧
          s'.connections = Function.update s.connections c.name (some s.accepted.length)) ∧
      ∀ conn s', s.step (.removeConnectionInLoop conn) = some s' → ∀ key,
        s'.connections key = if s.connections key = some conn then none else s.connections key := by
  have h : Sound listenAddr nameArg s := run_inv sound_step sound_start hrun
  refine ⟨h.exact hfew, ?_, ?_, ?_, ?_⟩
  · intro n c hc
    obtain ⟨hlt, -⟩ := List.getElem?_eq_some_iff.mp hc
    exact h.named n c hc (by omega)
  · rw [List.nodup_iff_getElem?_ne_getElem?]
    intro m n hlt hn heq
    rw [List.length_map] at hn
    rw [List.getElem?_map, List.getElem?_map, List.getElem?_eq_getElem (Nat.lt_trans hlt hn),
      List.getElem?_eq_getElem hn, Option.map_some, Option.map_some, Option.some.injEq] at heq
    have := h.eq_of_name hfew (List.getElem?_eq_getElem _) (List.getElem?_eq_getElem hn) heq
    omega
  · intro ioLoop s' hs' hfew'
    cases hs'
    replace hfew' : (s.newConnection ioLoop).accepted.length < tooMany := hfew'
    simp only [newConnection, List.length_append, List.length_singleton] at hfew'
    refine ⟨_, rfl, ?_, rfl⟩
    show s.connections (s.name ++ buf s.ipPort s.nextConnId) = none
    rw [h.newName hfew']
    exact h.connections_newName hfew'
  · intro conn s' hs'
    exact h.erases_own hfew hs'

/-- Three connections; the first is removed twice, and the third stays. -/
theorem connections_exact_run :
    ∃ s : TcpServer Bool,
      run step (start ⟨(127, 0, 0, 1), (0x1f, 0x90)⟩ "echo".toList)
        [.newConnection true, .newConnection false, .removeConnectionInLoop 0, .newConnection true,
          .removeConnectionInLoop 1, .removeConnectionInLoop 0] = some s ∧
      s.connections "echo-127.0.0.1:8080#3".toList = some 2 ∧ Exact s := by
  refine exists_run_eq
    (fun s => (s.connections "echo-127.0.0.1:8080#3".toList, s.accepted.length))
    (some 2, 3) (by decide +kernel) fun s hs hf => ?_
  rw [Prod.mk.injEq] at hf
  refine ⟨hf.1, (connections_exact _ _ _ s hs ?_).1⟩
  rw [hf.2]
  decide

end TcpServer
end Muduo
