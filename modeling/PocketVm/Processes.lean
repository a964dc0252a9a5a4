import Mathlib.Data.List.Nodup

/-!
# Process tables

The processes that one process, the owner of the table, shares a system with. A process is known by
an identity that nothing else ever has; its number is its own only while it is in the table, and its
group's number only while the group has a member. The owner has identity 0 and is not listed.

A process that has ended keeps its entry until its parent collects it, and its children go to an
heir.
-/

namespace Processes

open List

structure Process where
  id : Nat
  pid : Nat
  group : Nat
  parent : Nat
  status : Option Nat
  deriving DecidableEq

structure Table where
  /-- The number of the owner. -/
  own : Nat
  processes : List Process
  /-- The identity of the next process. -/
  next : Nat
  older : ∀ p ∈ processes, p.id < next
  ids : (processes.map Process.id).Nodup
  pids : (processes.map Process.pid).Nodup

namespace Table

/-- A number that is neither that of a process nor that of a group; 0 and 1 are never given out. -/
def Free (t : Table) (pid : Nat) : Prop :=
  1 < pid ∧ pid ≠ t.own ∧ ∀ p ∈ t.processes, p.pid ≠ pid ∧ p.group ≠ pid

instance decidableFree (t : Table) (pid : Nat) : Decidable (t.Free pid) :=
  inferInstanceAs (Decidable (_ ∧ _))

def empty (own : Nat) : Table := ⟨own, [], 1, by simp, by simp, by simp⟩

def add (t : Table) (parent pid group : Nat) (h : t.Free pid) : Table where
  own := t.own
  processes := t.processes ++ [⟨t.next, pid, group, parent, none⟩]
  next := t.next + 1
  older p hp := by
    rcases mem_append.mp hp with hp | hp
    · exact Nat.lt_succ_of_lt (t.older p hp)
    · rw [mem_singleton.mp hp]
      exact Nat.lt_succ_self _
  ids := by
    rw [map_append, nodup_append]
    refine ⟨t.ids, by simp, fun a ha b hb hab => ?_⟩
    obtain ⟨p, hp, rfl⟩ := mem_map.mp ha
    exact absurd (t.older p hp) (by simp [hab, mem_singleton.mp hb])
  pids := by
    rw [map_append, nodup_append]
    refine ⟨t.pids, by simp, fun a ha b hb hab => ?_⟩
    obtain ⟨p, hp, rfl⟩ := mem_map.mp ha
    exact (h.2.2 p hp).1 (hab.trans (mem_singleton.mp hb))

/-- The entries change, but not who they are about. -/
def change (t : Table) (f : Process → Process) (hid : ∀ p, (f p).id = p.id)
    (hpid : ∀ p, (f p).pid = p.pid) :
    Table where
  own := t.own
  processes := t.processes.map f
  next := t.next
  older p hp := by
    obtain ⟨q, hq, rfl⟩ := mem_map.mp hp
    rw [hid]
    exact t.older q hq
  ids := by
    rw [map_map, show Process.id ∘ f = Process.id from funext hid]
    exact t.ids
  pids := by
    rw [map_map, show Process.pid ∘ f = Process.pid from funext hpid]
    exact t.pids

def remove (t : Table) (id : Nat) : Table where
  own := t.own
  processes := t.processes.filter fun p => p.id ≠ id
  next := t.next
  older p hp := t.older p (mem_of_mem_filter hp)
  ids := t.ids.sublist (filter_sublist.map _)
  pids := t.pids.sublist (filter_sublist.map _)

def children (t : Table) : List Process := t.processes.filter fun p => p.parent = 0

def holder (t : Table) (pid : Nat) : Option Process := t.processes.find? fun p => p.pid = pid

end Table

inductive Move where
  /-- A process appears with a number that is free. -/
  | fork (parent pid group : Nat)
  | exit (id status heir : Nat)
  /-- A parent other than the owner collects a process that has ended. -/
  | collect (id : Nat)
  | regroup (id group : Nat)
  deriving DecidableEq

def ended (id status heir : Nat) (p : Process) : Process :=
  if p.id = id then { p with status := some status }
  else if p.parent = id then { p with parent := heir }
  else p

def regrouped (id group : Nat) (p : Process) :
    Process := if p.id = id then { p with group := group } else p

section
variable {id status heir group : Nat} {p : Process}

@[simp] theorem ended_id : (ended id status heir p).id = p.id := by unfold ended; split_ifs <;> rfl

@[simp] theorem ended_pid :
    (ended id status heir p).pid = p.pid := by unfold ended; split_ifs <;> rfl

@[simp] theorem regrouped_id :
    (regrouped id group p).id = p.id := by unfold regrouped; split_ifs <;> rfl

@[simp] theorem regrouped_pid :
    (regrouped id group p).pid = p.pid := by unfold regrouped; split_ifs <;> rfl

end

/-- One move; `none` if it cannot happen. -/
def Table.move (t : Table) : Move → Option Table
  | .fork parent pid group =>
    if h : t.Free pid ∧ (group = pid ∨ ∃ p ∈ t.processes, p.group = group) then
      some (t.add parent pid group h.1)
    else none
  | .exit id status heir =>
    if id ≠ 0 ∧ heir ≠ id ∧ ∃ p ∈ t.processes, p.id = id ∧ p.status = none then
      some (t.change (ended id status heir) (fun _ => ended_id) fun _ => ended_pid)
    else none
  | .collect id =>
    if ∃ p ∈ t.processes, p.id = id ∧ p.parent ≠ 0 ∧ p.status.isSome then
      some (t.remove id) else none
  | .regroup id group =>
    if ∃ p ∈ t.processes, p.id = id ∧ (group = p.pid ∨ ∃ q ∈ t.processes, q.group = group) then
      some (t.change (regrouped id group) (fun _ => regrouped_id) fun _ => regrouped_pid)
    else none

end Processes
