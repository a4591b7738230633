import LoxTokens.Proofs.CommandLine.Signals

/-!
# Sinks that several scans share

A sink has a state of any type and takes each fault into it.  One sink may serve
several scans, one after another, each of which begins with the state that the
one before it left.  The tokens of a scan do not depend on its sink, and of all
that a scan shows only the faults reach the sink, in their order.  So the state
in the end is what the sink makes of the faults of all the texts, one text behind
the other, and nothing else is carried from one scan to the next.
-/

namespace LoxTokens

open Log (Signal)

/-- Scans texts one after another with one sink: the tokens of each text, and
what the sink holds in the end. -/
def scanEachInto {σ : Type} (sink : Sink σ) (held : σ) : List String → List (List Token) × σ
  | [] => ([], held)
  | source :: sources =>
    let (tokens, held) := scanInto sink held source
    let (others, held) := scanEachInto sink held sources
    (tokens :: others, held)

/-- The faults of several texts, one text behind the other. -/
def faultsOfEach (sources : List String) : List Fault :=
  sources.flatMap fun source => (scan source).faults

namespace Sink

variable {σ : Type} (sink : Sink σ)

/-- Of one signal a sink takes the fault, if it hands over one. -/
theorem observer_eq (held : σ) (signal : Signal) :
    sink.observer held signal = signal.fault?.toList.foldl sink held := by
  cases signal <;> rfl

theorem foldl_observer (signals : List Signal) (held : σ) :
    signals.foldl sink.observer held = (signals.filterMap Signal.fault?).foldl sink held := by
  induction signals generalizing held with
  | nil => rfl
  | cons signal signals ih =>
      rw [List.foldl_cons, ih, observer_eq, List.filterMap_cons]
      cases signal.fault? <;> rfl

end Sink

/-- What one scan does to a sink: it hands over the faults of its text. -/
theorem scanInto_eq {σ : Type} (sink : Sink σ) (held : σ) (source : String) :
    scanInto sink held source = ((scan source).tokens, (scan source).faults.foldl sink held) := by
  rw [scanInto, scanObserved_eq, Sink.foldl_observer, filterMap_fault?_signals_eq_faults]

/-- And so do several scans. -/
theorem scanEachInto_eq {σ : Type} (sink : Sink σ) (held : σ) (sources : List String) :
    scanEachInto sink held sources =
      (sources.map fun source => (scan source).tokens, (faultsOfEach sources).foldl sink held) := by
  induction sources generalizing held with
  | nil => rfl
  | cons source sources ih =>
      have hfaults : faultsOfEach (source :: sources) =
          (scan source).faults ++ faultsOfEach sources := List.flatMap_cons
      rw [scanEachInto, scanInto_eq]
      dsimp only
      rw [ih, hfaults, List.foldl_append, List.map_cons]

/-! ## The sinks of the library -/

theorem toList_foldl_collect (faults : List Fault) (held : Array Fault) :
    (faults.foldl Sink.collect held).toList = held.toList ++ faults := by
  induction faults generalizing held with
  | nil => simp
  | cons fault faults ih =>
      rw [List.foldl_cons, ih, Sink.collect, Array.toList_push, List.append_assoc,
        List.singleton_append]

theorem foldl_count (faults : List Fault) (counted : Nat) :
    faults.foldl Sink.count counted = counted + faults.length := by
  induction faults generalizing counted with
  | nil => rfl
  | cons fault faults ih =>
      rw [List.foldl_cons, ih, Sink.count, List.length_cons]
      omega

/-- Counting the faults of several texts adds their numbers. -/
theorem foldl_count_each (sources : List String) (counted : Nat) :
    (faultsOfEach sources).foldl Sink.count counted =
      sources.foldl (fun total source => total + (scan source).faults.length) counted := by
  rw [faultsOfEach, List.foldl_flatMap]
  congr 1
  funext total source
  exact foldl_count (scan source).faults total

/-- **Sinks do not matter to a scan, and share well.**  With any sink, whatever
it holds, each of several texts has the tokens of a scan of its own, and the sink
ends with the fold of all their faults.  So a sink that collects keeps what it
held and appends the faults of each text, and one that counts adds their
numbers. -/
theorem scanEachInto_foldl :
    (∀ {σ : Type} (sink : Sink σ) (held : σ) (sources : List String),
      (scanEachInto sink held sources).1 = sources.map (fun source => (scan source).tokens) ∧
      (scanEachInto sink held sources).2 =
        (sources.flatMap fun source => (scan source).faults).foldl sink held) ∧
    (∀ (held : Array Fault) (sources : List String),
      (scanEachInto Sink.collect held sources).2.toList =
        held.toList ++ sources.flatMap fun source => (scan source).faults) ∧
    ∀ (counted : Nat) (sources : List String),
      (scanEachInto Sink.count counted sources).2 =
        sources.foldl (fun total source => total + (scan source).faults.length) counted := by
  refine ⟨?_, ?_, ?_⟩
  · intro σ sink held sources
    rw [scanEachInto_eq]
    exact ⟨rfl, rfl⟩
  · intro held sources
    rw [scanEachInto_eq, toList_foldl_collect]
    rfl
  · intro counted sources
    rw [scanEachInto_eq, foldl_count_each]

end LoxTokens
