/-
# What can end a run

The ways in which a function of the library does not return: an exception
that leaves it, an `abort()`, a failed `assert`, or a use of memory that the
language leaves undefined.
-/
import Mathlib.Tactic.Common

namespace MiniMuduo

/-- Why a call did not return. -/
inductive Fault
  /-- `std::length_error`: a vector asked to grow beyond `max_size()`. -/
  | lengthError
  /-- An access outside a vector's elements. -/
  | outOfRange
  | divisionByZero
  /-- A failed `assert`. -/
  | assertion
  /-- `std::bad_function_call`: an empty `std::function` was called. -/
  | badFunctionCall
  /-- `std::logic_error`: a receiver started without its callback. -/
  | logicError
  /-- The `abort()` of `EventLoop::AssertInLoopThread`. -/
  | notInLoopThread
  /-- The `abort()` of `EpollPoller::Update`: `epoll_ctl` refused an ADD or a MOD. -/
  | epollCtl
  /-- The `abort()` of `EpollPoller::Poll`: `epoll_wait` failed. -/
  | epollWait
  /-- A read through a pointer to a deleted object. -/
  | useAfterFree
  /-- A `delete` of a deleted object. -/
  | doubleFree
  /-- `std::bad_alloc`: `new` did not give out a free address. -/
  | badAlloc
  deriving DecidableEq, Repr

end MiniMuduo
