/-! Go's `sync.RWMutex`. A reader that asks while a writer waits or holds the
lock is parked; the writer's `Unlock` hands the lock to all parked readers at
once. Unlocking in a mode in which the lock is not held ends the program. -/
namespace NetGraphz

/-- `sync.RWMutex`: the read locks that are held, the readers that are parked,
and whether some writer has announced itself. That writer holds the lock as
soon as no read lock is held any more. -/
structure RWMutex where
  readers : Nat := 0
  parked : Nat := 0
  announced : Bool := false
  deriving DecidableEq

namespace RWMutex

/-- `RLock`, up to where it may have to wait. -/
def rLock (mutex : RWMutex) : RWMutex :=
  if mutex.announced then { mutex with parked := mutex.parked + 1 }
  else { mutex with readers := mutex.readers + 1 }

/-- `RUnlock`. -/
def rUnlock (mutex : RWMutex) : Except String RWMutex :=
  if mutex.readers = 0 then .error "sync: RUnlock of unlocked RWMutex"
  else .ok { mutex with readers := mutex.readers - 1 }

/-- The first half of `Lock`: readers that come later are parked. A second
writer waits before it. -/
def announce (mutex : RWMutex) : Option RWMutex :=
  if mutex.announced then none else some { mutex with announced := true }

/-- `Unlock`. -/
def unlock (mutex : RWMutex) : Except String RWMutex :=
  if mutex.announced then .ok { readers := mutex.readers + mutex.parked }
  else .error "sync: Unlock of unlocked RWMutex"

/-- What the runtime reports when the only goroutine waits. -/
def asleep : String := "all goroutines are asleep - deadlock!"

/-- `Lock` by the only goroutine: nobody else will let it in. -/
def lockAlone (mutex : RWMutex) : Except String RWMutex :=
  match mutex.announce with
  | none => .error asleep
  | some mutex => if mutex.readers = 0 then .ok mutex else .error asleep

/-- `RLock` by the only goroutine. -/
def rLockAlone (mutex : RWMutex) : Except String RWMutex :=
  if mutex.announced then .error asleep else .ok mutex.rLock

end RWMutex
end NetGraphz
