import LinuxDriver.Interleaving
import LinuxDriver.ThreadTally

/-!
# The np-nc module: N producers and N consumers over one ring

`np-nc/np-nc.c` as a step function over three kinds of actors: the module's init routine,
which forks the threads, the producers and the consumers. Each `down`, each `up` and each
access to `buf`, `in`, `out` and `cflag` is one step. `s1`, `s2` and `mutex` are counting
semaphores: a `down` at zero is not enabled. The lists `produced` and `consumed` record the
goods in the order of the writes to and the reads from `buf`.
-/

namespace NpNc

def pNum : ℕ := 5

def cNum : ℕ := 5

def bufNum : ℕ := 10

/-- Program points of `productor_thread`; a slot is the value read from `in` before. -/
inductive ProducerPc
  | unborn
  | start
  | test
  | peekS1
  | downS1
  | downMutex
  | readIn
  | storeBuf (slot : ℕ)
  | printGoods
  | rereadIn
  | storeIn (slot : ℕ)
  | upMutex
  | upS2
  | decNum
  | returned
  deriving DecidableEq

/-- Program points of `consumer_thread`; a slot is the value read from `out` before. -/
inductive ConsumerPc
  | unborn
  | start
  | test
  | peekS2
  | downS2
  | downMutex
  | readOut
  | loadBuf (slot : ℕ)
  | printGoods
  | rereadOut
  | storeOut (slot : ℕ)
  | upMutex
  | upS1
  | incFlag
  | returned
  deriving DecidableEq

structure Producer where
  pc : ProducerPc
  i : ℤ
  pNum : ℕ
  deriving DecidableEq

structure Consumer where
  pc : ConsumerPc
  i : ℤ
  goods : ℤ
  deriving DecidableEq

/-- Program points of the loop of `np_nc_init`. -/
inductive InitPc (N : ℕ)
  | loop (i : ℕ)
  | forkProducer (i : Fin N)
  | forkConsumer (i : Fin N)
  | returned
  deriving DecidableEq

structure State (N : ℕ) where
  s1 : ℕ
  s2 : ℕ
  mutex : ℕ
  buf : ℕ → ℤ
  inPos : ℕ
  outPos : ℕ
  cflag : ℕ
  index : Fin N → ℤ
  initPc : InitPc N
  producer : Fin N → Producer
  consumer : Fin N → Consumer
  produced : List ℤ
  consumed : List ℤ

inductive Actor (N : ℕ)
  | init
  | producer (j : Fin N)
  | consumer (j : Fin N)
  deriving DecidableEq

variable {N : ℕ}

/-- After the assignments and `sema_init` calls of `np_nc_init`, before its loop. -/
def initial (N : ℕ) : State N where
  s1 := bufNum
  s2 := 0
  mutex := 1
  buf := fun _ => 0
  inPos := 0
  outPos := 0
  cflag := 0
  index := fun _ => 0
  initPc := .loop 0
  producer := fun _ => ⟨.unborn, 0, pNum⟩
  consumer := fun _ => ⟨.unborn, 0, 0⟩
  produced := []
  consumed := []

namespace State

def setProducer (s : State N) (j : Fin N) (p : Producer) : State N :=
  { s with producer := Function.update s.producer j p }

def setConsumer (s : State N) (j : Fin N) (c : Consumer) : State N :=
  { s with consumer := Function.update s.consumer j c }

def producerAt (s : State N) (j : Fin N) (pc : ProducerPc) : State N :=
  s.setProducer j { s.producer j with pc := pc }

def consumerAt (s : State N) (j : Fin N) (pc : ConsumerPc) : State N :=
  s.setConsumer j { s.consumer j with pc := pc }

end State

/-- The goods number written in the current turn of the loop. -/
def Producer.item (p : Producer) : ℤ := p.i * 100 + (NpNc.pNum - p.pNum + 1)

def npNcInit (s : State N) : Option (State N) :=
  match s.initPc with
  | .loop i =>
      if h : i < N then
        some { s with index := Function.update s.index ⟨i, h⟩ (i + 1)
                      initPc := .forkProducer ⟨i, h⟩ }
      else some { s with initPc := .returned }
  | .forkProducer j => some { s.producerAt j .start with initPc := .forkConsumer j }
  | .forkConsumer j => some { s.consumerAt j .start with initPc := .loop (j + 1) }
  | .returned => none

def productorThread (s : State N) (j : Fin N) : Option (State N) :=
  match (s.producer j).pc with
  | .unborn => none
  | .start => some (s.setProducer j ⟨.test, s.index j, pNum⟩)
  | .test =>
      if (s.producer j).pNum ≠ 0 then some (s.producerAt j .peekS1)
      else some (s.producerAt j .returned)
  -- the test of s1.count only decides whether a line is printed
  | .peekS1 => some (s.producerAt j .downS1)
  | .downS1 =>
      if 0 < s.s1 then some { s.producerAt j .downMutex with s1 := s.s1 - 1 } else none
  | .downMutex =>
      if 0 < s.mutex then some { s.producerAt j .readIn with mutex := s.mutex - 1 } else none
  | .readIn => some (s.producerAt j (.storeBuf s.inPos))
  | .storeBuf slot =>
      some { s.producerAt j .printGoods with
        buf := Function.update s.buf slot (s.producer j).item
        produced := s.produced ++ [(s.producer j).item] }
  | .printGoods => some (s.producerAt j .rereadIn)
  | .rereadIn => some (s.producerAt j (.storeIn s.inPos))
  | .storeIn slot => some { s.producerAt j .upMutex with inPos := (slot + 1) % bufNum }
  | .upMutex => some { s.producerAt j .upS2 with mutex := s.mutex + 1 }
  | .upS2 => some { s.producerAt j .decNum with s2 := s.s2 + 1 }
  | .decNum =>
      some (s.setProducer j { s.producer j with pc := .test, pNum := (s.producer j).pNum - 1 })
  | .returned => none

def consumerThread (s : State N) (j : Fin N) : Option (State N) :=
  match (s.consumer j).pc with
  | .unborn => none
  | .start => some (s.setConsumer j { s.consumer j with pc := .test, i := s.index j })
  | .test =>
      if s.cflag ≠ cNum then some (s.consumerAt j .peekS2) else some (s.consumerAt j .returned)
  | .peekS2 => some (s.consumerAt j .downS2)
  | .downS2 =>
      if 0 < s.s2 then some { s.consumerAt j .downMutex with s2 := s.s2 - 1 } else none
  | .downMutex =>
      if 0 < s.mutex then some { s.consumerAt j .readOut with mutex := s.mutex - 1 } else none
  | .readOut => some (s.consumerAt j (.loadBuf s.outPos))
  | .loadBuf slot =>
      some { s.setConsumer j { s.consumer j with pc := .printGoods, goods := s.buf slot } with
        consumed := s.consumed ++ [s.buf slot] }
  | .printGoods => some (s.consumerAt j .rereadOut)
  | .rereadOut => some (s.consumerAt j (.storeOut s.outPos))
  | .storeOut slot => some { s.consumerAt j .upMutex with outPos := (slot + 1) % bufNum }
  | .upMutex => some { s.consumerAt j .upS1 with mutex := s.mutex + 1 }
  | .upS1 => some { s.consumerAt j .incFlag with s1 := s.s1 + 1 }
  | .incFlag => some { s.consumerAt j .test with cflag := s.cflag + 1 }
  | .returned => none

def step (s : State N) : Actor N → Option (State N)
  | .init => npNcInit s
  | .producer j => productorThread s j
  | .consumer j => consumerThread s j

end NpNc
