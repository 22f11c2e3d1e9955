namespace Intcode.CommandLine

def versionLine : String :=
  "intcodekit 0.4.0\n"

def helpText : String :=
  "usage: intcodekit [-h] [--version] [-v] [-q] [--log-file LOG_FILE]
                  [--word \x7bi32,i64,i128,bigint\x7d]
                  command ...

Intcode VM Toolkit — run, disassemble, chain, search

positional arguments:
  command
    run                 Run a program and print every output
    disasm              Disassemble a program image
    amp                 Amplifier chain or feedback loop
    nounverb            Patch cells 1/2, or search for a target
    serial              Serve a program over a serial port

options:
  -h, --help            show this help message and exit
  --version             show program's version number and exit
  -v, --verbose         Increase verbosity (-v info, -vv debug)
  -q, --quiet           Suppress all log output except errors
  --log-file LOG_FILE   Write a detailed log to file
  --word \x7bi32,i64,i128,bigint\x7d
                        Integer width profile (default: bigint)

commands:
  run        Run a program and print every output
  disasm     Disassemble a program image
  amp        Amplifier chain or feedback loop
  nounverb   Patch cells 1/2, or search for a target result
  serial     Serve a program over a serial port
"

end Intcode.CommandLine
