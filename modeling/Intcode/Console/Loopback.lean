import Intcode.Console.Port

namespace Intcode

structure Loopback where
  url : String
  waiting : List UInt8 := []
  deriving Repr, DecidableEq

instance : Port Loopback where
  name port := port.url
  readLine port :=
    let line := port.waiting.takeWhile (· != Port.lineBreak)
    match port.waiting.dropWhile (· != Port.lineBreak) with
    | [] => (.ok line, { port with waiting := [] })
    | b :: rest => (.ok (line ++ [b]), { port with waiting := rest })
  write line port := (.ok (), { port with waiting := port.waiting ++ line })

end Intcode
