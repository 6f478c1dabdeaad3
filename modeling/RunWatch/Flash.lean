import RunWatch.Json.Coded
namespace RunWatch
open Json

inductive FlashChange where
  | activated (key : String)
  | expired (key : String)
deriving DecidableEq

def FlashChange.document : FlashChange → Json
  | .activated key => .object [("change",.text "activated"),("key",encode key)]
  | .expired key => .object [("change",.text "expired"),("key",encode key)]

-- An expiry waiting for its time. A cancelled one may still come to its deadline.
structure FlashTimer where
  key : String
  generation : UInt64
  deadline : Nat
  cancelled : Bool

structure Flash where
  hold : Nat
  active : List (String × UInt64)
  lastGeneration : UInt64
  timers : List FlashTimer

namespace Flash

def idle (hold : Nat) : Flash := ⟨hold,[],0,[]⟩

def isActive (f : Flash) (key : String) : Bool := (f.active.lookup key).isSome

def insertKey (key : String) : List String → List String
  | [] => [key]
  | other :: rest => if key < other then key :: other :: rest else other :: insertKey key rest

def activeKeys (f : Flash) : List String := (f.active.map Prod.fst).foldr insertKey []

def cancel (doomed : FlashTimer → Bool) (timers : List FlashTimer) : List FlashTimer :=
  timers.map fun t => if doomed t then { t with cancelled:=true } else t

def touch (f : Flash) (key : String) (now : Nat) : Flash × List FlashChange :=
  let generation := f.lastGeneration + 1
  let previous := f.active.lookup key
  let timers := cancel (fun t => previous == some t.generation) f.timers
  ({ f with
      active:=(key,generation) :: f.active.filter fun entry => entry.1 != key
      lastGeneration:=generation
      timers:=timers ++ [⟨key,generation,now + f.hold,false⟩] },
    [.activated key])

def removeTimer (generation : UInt64) (timers : List FlashTimer) : List FlashTimer :=
  timers.filter fun t => t.generation != generation

def expire (f : Flash) (t : FlashTimer) : Flash × List FlashChange :=
  let rest := removeTimer t.generation f.timers
  if f.active.lookup t.key == some t.generation then
    ({ f with active:=f.active.filter fun entry => entry.1 != t.key, timers:=rest },[.expired t.key])
  else ({ f with timers:=rest },[])

def abandon (f : Flash) (t : FlashTimer) : Flash :=
  { f with timers:=removeTimer t.generation f.timers }

def teardown (f : Flash) : Flash :=
  let held := f.active.map Prod.snd
  { f with active:=[], timers:=cancel (fun t => held.contains t.generation) f.timers }

inductive Event where
  | touch (key : String) (now : Nat)
  | expire (generation : UInt64) (now : Nat)
  | abandon (generation : UInt64)
  | teardown

def timer? (f : Flash) (generation : UInt64) : Option FlashTimer :=
  f.timers.find? fun t => t.generation == generation

-- An expiry runs at its deadline or later; only a cancelled one is abandoned.
def advance (f : Flash) : Event → Option (Flash × List FlashChange)
  | .touch key now => some (f.touch key now)
  | .expire generation now => (f.timer? generation).bind fun t =>
    if t.deadline ≤ now then some (f.expire t) else none
  | .abandon generation => (f.timer? generation).bind fun t =>
    if t.cancelled then some (f.abandon t,[]) else none
  | .teardown => some (f.teardown,[])

def due? (now : Nat) (timers : List FlashTimer) : Option FlashTimer :=
  (timers.filter fun t => !t.cancelled && t.deadline ≤ now).foldl
    (fun first t => match first with
      | none => some t
      | some f => if t.deadline < f.deadline then some t else some f) none

def settleWithin : Nat → Flash → Nat → Flash × List FlashChange
  | 0, f, _ => (f,[])
  | fuel + 1, f, now =>
    match due? now f.timers with
    | none => (f,[])
    | some t =>
      let (f,changes) := f.expire t
      let (f,more) := settleWithin fuel f now
      (f,changes ++ more)

def settle (f : Flash) (now : Nat) : Flash × List FlashChange := settleWithin f.timers.length f now

def nextDeadline? (f : Flash) : Option Nat :=
  ((f.timers.filter fun t => !t.cancelled).map FlashTimer.deadline).min?

end Flash
end RunWatch
